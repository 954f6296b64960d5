import RobotConsole.Proofs.TomlTables

/-!
# What a document may define

A place of a document is the list of names that leads to it.  Every expression mentions some
places, one after the other, and whether it may do so depends only on how each place was
mentioned before: a value is put where there is nothing, a header makes a table once, a dotted
key goes on in tables that dotted keys have made.  Expressions that keep to these rules are all
accepted.
-/

set_option autoImplicit false

namespace RobotConsole.Toml

/-! ## Rules -/

/-- What has become of a place. -/
inductive Standing where
  | free
  /-- Tables below it have headers. -/
  | passed
  /-- A dotted key has made it a table. -/
  | dotted
  | headed
  /-- A list of tables, with the places in its last member below it. -/
  | listed
  | valued
  deriving DecidableEq

/-- What an expression has to do with a place. -/
inductive Mention where
  /-- A header leads through it. -/
  | passing
  /-- A dotted key leads through it. -/
  | dotting
  /-- A dotted key puts its value right into it. -/
  | receiving
  | heading
  | listing
  | valuing
  deriving DecidableEq

/-- What becomes of a place that is mentioned, if it may be. -/
def Standing.after? : Standing → Mention → Option Standing
  | .free, .passing => some .passed
  | .free, .dotting => some .dotted
  | .free, .receiving => some .dotted
  | .free, .heading => some .headed
  | .free, .listing => some .listed
  | .free, .valuing => some .valued
  | .valued, _ => none
  | standing, .passing => some standing
  | .passed, .dotting => some .passed
  | .dotted, .dotting => some .dotted
  | .dotted, .receiving => some .dotted
  | .passed, .heading => some .headed
  | .listed, .listing => some .listed
  | _, _ => none

abbrev Places := List String → Standing

/-- The places after one of them is mentioned.  A further member of a list begins with nothing
in it. -/
def mention? (places : Places) (place : List String) (how : Mention) : Option Places :=
  ((places place).after? how).map fun standing other =>
    if other = place then standing
    else if how = .listing ∧ place <+: other then .free
    else places other

def follow? : List String → Places → List (String × Mention) → Option Places
  | _, places, [] => some places
  | front, places, (name, how) :: steps =>
      (mention? places (front ++ [name]) how).bind fun places =>
        follow? (front ++ [name]) places steps

/-- A dotted key leads through tables, and puts its value into the last of them. -/
def dottedSteps : List String → List (String × Mention)
  | [] => []
  | [name] => [(name, .receiving)]
  | name :: next :: path => (name, .dotting) :: dottedSteps (next :: path)

def passingSteps (path : List String) : List (String × Mention) :=
  path.map fun name => (name, .passing)

/-- The places that an expression mentions, if pairs belong to the table `current`. -/
def Expression.steps (current : List String) : Expression → List (String × Mention)
  | .pair key _ => passingSteps current ++ (dottedSteps key.path ++ [(key.last, .valuing)])
  | .header key => passingSteps key.path ++ [(key.last, .heading)]
  | .member key => passingSteps key.path ++ [(key.last, .listing)]

def through? : List String → Places → List Expression → Option Places
  | _, places, [] => some places
  | current, places, expression :: expressions =>
      (follow? [] places (expression.steps current)).bind fun places =>
        through? (expression.opened current) places expressions

/-- Each expression may do what it does after those before it. -/
def IsConsistent (expressions : List Expression) : Prop :=
  (through? [] (fun _ => .free) expressions).isSome = true

instance (expressions : List Expression) : Decidable (IsConsistent expressions) :=
  inferInstanceAs (Decidable (_ = true))

theorem Standing.ne_valued_of_after? {standing next : Standing} {how : Mention}
    (may : standing.after? how = some next) (noValue : how ≠ .valuing) : next ≠ .valued := by
  rintro rfl
  cases standing <;> cases how <;> first | exact noValue rfl | cases may

/-! ## Places of a tree -/

def Item.standing : Item → Standing
  | .table .onTheWay _ => .passed
  | .table .dotted _ => .dotted
  | .table .header _ => .headed
  | .tables (_ :: _) => .listed
  | _ => .valued

theorem Item.standing_ne_free (item : Item) : item.standing ≠ .free := by
  unfold Item.standing
  split <;> exact nofun

def standingOf (held : Option Item) : Standing :=
  held.elim .free Item.standing

def innerOf (held : Option Item) : Entries :=
  held.elim [] Item.inner

def Entries.places : Standing → Entries → Places
  | root, _, [] => root
  | _, entries, name :: path =>
      places (standingOf (entries.item? name)) (innerOf (entries.item? name)) path

def under (name : String) (places : Places) : Places :=
  fun path => places (name :: path)

/-- The places with others below a name. -/
def graft (name : String) (inner places : Places) : Places
  | [] => places []
  | first :: path => if first = name then inner path else places (first :: path)

theorem places_nil (path : List String) : Entries.places .free [] path = .free := by
  induction path with
  | nil => rfl
  | cons name path ih => exact ih

@[simp]
theorem under_graft (name : String) (inner places : Places) :
    under name (graft name inner places) = inner := by
  funext path
  simp [under, graft]

@[simp]
theorem graft_under (name : String) (places : Places) :
    graft name (under name places) places = places := by
  funext place
  cases place with
  | nil => rfl
  | cons first path =>
      by_cases same : first = name
      · simp [graft, under, same]
      · simp [graft, same]

@[simp]
theorem graft_graft (name : String) (inner between places : Places) :
    graft name inner (graft name between places) = graft name inner places := by
  funext place
  cases place with
  | nil => rfl
  | cons first path => by_cases same : first = name <;> simp [graft, same]

theorem places_set (root : Standing) (entries : Entries) (name : String) (item : Item) :
    (entries.set name item).places root =
      graft name (item.inner.places item.standing) (entries.places root) := by
  funext place
  cases place with
  | nil => rfl
  | cons first path =>
      rw [Entries.places, Entries.item?_set]
      by_cases same : first = name
      · simp [graft, same, standingOf, innerOf]
      · have apart : name ≠ first := Ne.symm same
        simp [graft, same, apart, Entries.places]

/-! ## Mentions below a name -/

theorem mention?_under (name : String) (places : Places) (place : List String) (how : Mention) :
    mention? places (name :: place) how =
      (mention? (under name places) place how).map fun inner => graft name inner places := by
  rw [mention?, mention?, Option.map_map]
  congr 1
  funext standing other
  cases other with
  | nil => simp [graft]
  | cons first path =>
      by_cases same : first = name
      · subst same
        simp [graft, under, List.cons_prefix_cons]
      · have apart : name ≠ first := Ne.symm same
        simp [graft, same, apart, List.cons_prefix_cons]

theorem follow?_under (name : String) (steps : List (String × Mention)) (front : List String)
    (places : Places) :
    follow? (name :: front) places steps =
      (follow? front (under name places) steps).map fun inner => graft name inner places := by
  induction steps generalizing front places with
  | nil => simp [follow?]
  | cons step steps ih =>
      obtain ⟨next, how⟩ := step
      rw [follow?, follow?, List.cons_append, mention?_under, Option.bind_map, Option.map_bind]
      congr 1
      funext inner
      simp [ih]

theorem follow?_cons (name : String) (how : Mention) (steps : List (String × Mention))
    (places : Places) :
    follow? [] places ((name, how) :: steps) =
      ((mention? (under name places) [] how).bind fun inner => follow? [] inner steps).map
        fun inner => graft name inner places := by
  rw [follow?, List.nil_append, mention?_under, Option.bind_map, Option.map_bind]
  congr 1
  funext inner
  simp [follow?_under]

/-- To mention a whole tree is to mention its root. -/
theorem mention?_root (root : Standing) (entries : Entries) (how : Mention) :
    mention? (entries.places root) [] how =
      (root.after? how).map fun next =>
        Entries.places next (if how = .listing then [] else entries) := by
  rw [mention?]
  congr 1
  funext next path
  cases path with
  | nil => simp [Entries.places]
  | cons name path =>
      by_cases listing : how = .listing
      · simp [listing, Entries.places, standingOf, innerOf, places_nil]
      · simp [listing, Entries.places]

/-! ## Changes that keep to the rules -/

/-- Where the steps may be taken, the change is made, and the places become those after the
steps. -/
def Implements (change : Entries → Option Entries) (steps : List (String × Mention)) : Prop :=
  ∀ root (entries : Entries) reached, follow? [] (entries.places root) steps = some reached →
    ∃ changed, change entries = some changed ∧ reached = changed.places root

theorem item_withInner {item : Item} (noValue : item.standing ≠ .valued) (changed : Entries) :
    (item.withInner changed).standing = item.standing ∧
      (item.withInner changed).inner = changed := by
  cases item with
  | table origin entries => cases origin <;> exact ⟨rfl, rfl⟩
  | tables members =>
      cases members with
      | nil => exact absurd rfl noValue
      | cons member members =>
          refine ⟨?_, by simp [Item.withInner, Item.inner]⟩
          rw [Item.withInner]
          cases (member :: members).dropLast <;> rfl
  | text _ | whole _ | boolean | float | date | array | braces _ => exact absurd rfl noValue

/-- The last step renews the item under its key. -/
theorem implements_last {change : Entries → Option Entries} {renew : Option Item → Option Item}
    {key : String} {how : Mention}
    (renews : ∀ entries : Entries,
      change entries = (renew (entries.item? key)).map fun item => entries.set key item)
    (becomes : ∀ held next, (standingOf held).after? how = some next → ∃ item,
      renew held = some item ∧ item.standing = next ∧
        item.inner = if how = .listing then [] else innerOf held) :
    Implements change [(key, how)] := by
  intro root entries reached followed
  rw [follow?_cons, Option.map_eq_some_iff] at followed
  obtain ⟨inner, taken, rfl⟩ := followed
  obtain ⟨places, mentioned, done⟩ := Option.bind_eq_some_iff.mp taken
  obtain rfl : places = inner := Option.some.inj done
  change mention? (Entries.places _ _) [] how = _ at mentioned
  rw [mention?_root] at mentioned
  obtain ⟨next, may, rfl⟩ := Option.map_eq_some_iff.mp mentioned
  obtain ⟨item, renewed, standing, inner⟩ := becomes _ next may
  refine ⟨entries.set key item, by rw [renews, renewed]; rfl, ?_⟩
  rw [places_set, standing, inner]

/-- A step before others leads into a table, in which these are taken. -/
theorem implements_cons {made : Origin} {passes : Origin → Bool}
    {change : Bool → Entries → Option Entries} {name : String} {path : List String} {how : Mention}
    {steps : List (String × Mention)}
    (touches : ∀ held next, (standingOf held).after? how = some next → ∃ item,
      Entries.touch made passes held = some item ∧ item.standing = next ∧
        item.inner = innerOf held)
    (noValue : how ≠ .valuing) (noList : how ≠ .listing)
    (later : ∀ item : Item, (∃ before : Standing, before.after? how = some item.standing) →
      Implements (Entries.changeAt made passes change path item.isDotted) steps)
    (isDotted : Bool) :
    Implements (Entries.changeAt made passes change (name :: path) isDotted)
      ((name, how) :: steps) := by
  intro root entries reached followed
  rw [follow?_cons, Option.map_eq_some_iff] at followed
  obtain ⟨inner, taken, rfl⟩ := followed
  obtain ⟨places, mentioned, followed⟩ := Option.bind_eq_some_iff.mp taken
  change mention? (Entries.places _ _) [] how = _ at mentioned
  rw [mention?_root, if_neg noList] at mentioned
  obtain ⟨next, may, rfl⟩ := Option.map_eq_some_iff.mp mentioned
  obtain ⟨item, touched, rfl, sameInner⟩ := touches _ next may
  rw [← sameInner] at followed
  obtain ⟨changed, made, rfl⟩ := later item ⟨_, may⟩ _ _ _ followed
  obtain ⟨standing, inner⟩ := item_withInner (Standing.ne_valued_of_after? may noValue) changed
  refine ⟨entries.set name (item.withInner changed), ?_, ?_⟩
  · rw [Entries.changeAt_cons, touched, Option.bind_some, made]
    rfl
  · rw [places_set, standing, inner]

theorem touch_of_passing (held : Option Item) (next : Standing)
    (may : (standingOf held).after? .passing = some next) :
    ∃ item, Entries.touch .onTheWay (fun _ => true) held = some item ∧
      item.standing = next ∧ item.inner = innerOf held := by
  cases held with
  | none =>
      cases may
      exact ⟨_, rfl, rfl, rfl⟩
  | some item =>
      cases item with
      | table origin entries =>
          refine ⟨_, rfl, ?_, rfl⟩
          cases origin <;> exact Option.some.inj may
      | tables members =>
          cases members with
          | nil => cases may
          | cons member members =>
              cases may
              exact ⟨_, rfl, rfl, rfl⟩
      | text _ | whole _ | boolean | float | date | array | braces _ => cases may

theorem touch_of_dotting {how : Mention} (dotted : how = .dotting ∨ how = .receiving)
    (held : Option Item) (next : Standing) (may : (standingOf held).after? how = some next) :
    ∃ item, Entries.touch .dotted (· != .header) held = some item ∧
      item.standing = next ∧ item.inner = innerOf held := by
  cases held with
  | none =>
      rcases dotted with rfl | rfl <;> cases may <;> exact ⟨_, rfl, rfl, rfl⟩
  | some item =>
      cases item with
      | table origin entries =>
          cases origin <;> rcases dotted with rfl | rfl <;> cases may <;> exact ⟨_, rfl, rfl, rfl⟩
      | tables members => cases members <;> rcases dotted with rfl | rfl <;> cases may
      | text _ | whole _ | boolean | float | date | array | braces _ =>
          rcases dotted with rfl | rfl <;> cases may

theorem isDotted_of_receiving {item : Item}
    (may : ∃ before : Standing, before.after? .receiving = some item.standing) :
    item.isDotted = true := by
  obtain ⟨before, may⟩ := may
  have dotted : item.standing = .dotted := by
    cases before <;> first | exact (Option.some.inj may).symm | cases may
  cases item with
  | table origin entries => cases origin <;> first | rfl | cases dotted
  | tables members => cases members <;> cases dotted
  | text _ | whole _ | boolean | float | date | array | braces _ => cases dotted

theorem implements_passing {change : Bool → Entries → Option Entries}
    {steps : List (String × Mention)} (later : ∀ isDotted, Implements (change isDotted) steps)
    (path : List String) (isDotted : Bool) :
    Implements (Entries.changeAt .onTheWay (fun _ => true) change path isDotted)
      (passingSteps path ++ steps) := by
  induction path generalizing isDotted with
  | nil => exact later isDotted
  | cons name path ih =>
      exact implements_cons touch_of_passing (by decide) (by decide)
        (fun item _ => ih item.isDotted) isDotted

theorem implements_dotted {change : Bool → Entries → Option Entries}
    {steps : List (String × Mention)} (later : Implements (change true) steps)
    (path : List String) (isDotted : Bool) (known : path = [] → isDotted = true) :
    Implements (Entries.changeAt .dotted (· != .header) change path isDotted)
      (dottedSteps path ++ steps) := by
  induction path generalizing isDotted with
  | nil =>
      cases known rfl
      exact later
  | cons name path ih =>
      cases path with
      | nil =>
          refine implements_cons (touch_of_dotting (Or.inr rfl)) (by decide) (by decide) ?_ isDotted
          intro item may
          exact ih item.isDotted fun _ => isDotted_of_receiving may
      | cons next path =>
          refine implements_cons (touch_of_dotting (Or.inl rfl)) (by decide) (by decide) ?_ isDotted
          intro item _
          exact ih item.isDotted nofun

/-- A value that is no table is put where there is nothing. -/
theorem implements_value {item : Item} (noTable : item.isTable = false) (key : String) :
    Implements (Entries.define [] key item) [(key, .valuing)] := by
  refine implements_last (Entries.define_nil key item) ?_
  intro held next may
  cases held with
  | none =>
      cases may
      refine ⟨item, rfl, ?_⟩
      cases item with
      | table | tables => cases noTable
      | text _ | whole _ | boolean | float | date | array | braces _ => exact ⟨rfl, rfl⟩
  | some before =>
      have taken := before.standing_ne_free
      change before.standing.after? .valuing = some next at may
      cases standing : before.standing <;> rw [standing] at may taken
      · exact absurd rfl taken
      all_goals cases may

theorem implements_define {item : Item} (noTable : item.isTable = false) (path : List String)
    (key : String) :
    Implements (Entries.define path key item) (dottedSteps path ++ [(key, .valuing)]) := by
  cases path with
  | nil => exact implements_value noTable key
  | cons name path =>
      exact implements_dotted (implements_value noTable key) (name :: path) false nofun

theorem implements_header (key : String) :
    Implements (Entries.openTable [] key) [(key, .heading)] := by
  refine implements_last (Entries.openTable_nil key) ?_
  intro held next may
  cases held with
  | none =>
      cases may
      exact ⟨_, rfl, rfl, rfl⟩
  | some item =>
      cases item with
      | table origin entries =>
          cases origin <;> cases may
          exact ⟨_, rfl, rfl, rfl⟩
      | tables members => cases members <;> cases may
      | text _ | whole _ | boolean | float | date | array | braces _ => cases may

theorem implements_member (key : String) :
    Implements (Entries.openMember [] key) [(key, .listing)] := by
  refine implements_last (Entries.openMember_nil key) ?_
  intro held next may
  cases held with
  | none =>
      cases may
      exact ⟨_, rfl, rfl, rfl⟩
  | some item =>
      cases item with
      | tables members =>
          cases members with
          | nil => cases may
          | cons member members =>
              cases may
              have last := List.getLast?_concat (l := member :: members) (a := [])
              exact ⟨_, rfl, rfl, by rw [Item.inner, last]; rfl⟩
      | table origin entries => cases origin <;> cases may
      | text _ | whole _ | boolean | float | date | array | braces _ => cases may

/-! ## Documents -/

/-- The values in a document are no tables; these have headers or dotted keys. -/
def Expression.IsPlain : Expression → Prop
  | .pair _ item => item.isTable = false
  | .header _ | .member _ => True

theorem Expression.apply_consistent {expression : Expression} (plain : expression.IsPlain)
    {current : List String} {entries : Entries} {places : Places}
    (followed : follow? [] (entries.places .free) (expression.steps current) = some places) :
    ∃ changed, State.apply ⟨entries, current⟩ expression =
      some ⟨changed, expression.opened current⟩ ∧ places = changed.places .free := by
  cases expression with
  | pair key item =>
      have implements := implements_passing (fun _ => implements_define plain key.path key.last)
        current false
      obtain ⟨changed, made, rfl⟩ := implements _ _ _ followed
      exact ⟨changed, congrArg (Option.map fun entries => State.mk entries current) made, rfl⟩
  | header key =>
      have implements := implements_passing (fun _ => implements_header key.last) key.path false
      obtain ⟨changed, made, rfl⟩ := implements _ _ _ followed
      exact ⟨changed, congrArg (Option.map fun entries => State.mk entries key.parts) made, rfl⟩
  | member key =>
      have implements := implements_passing (fun _ => implements_member key.last) key.path false
      obtain ⟨changed, made, rfl⟩ := implements _ _ _ followed
      exact ⟨changed, congrArg (Option.map fun entries => State.mk entries key.parts) made, rfl⟩

theorem apply_of_through {expressions : List Expression}
    (plain : ∀ expression ∈ expressions, expression.IsPlain) {current : List String}
    {entries : Entries} {places : Places}
    (through : through? current (entries.places .free) expressions = some places) :
    ∃ final, expressions.foldlM State.apply ⟨entries, current⟩ = some final := by
  induction expressions generalizing current entries with
  | nil => exact ⟨_, rfl⟩
  | cons expression expressions ih =>
      obtain ⟨isPlain, others⟩ := List.forall_mem_cons.mp plain
      obtain ⟨between, followed, rest⟩ := Option.bind_eq_some_iff.mp through
      obtain ⟨changed, applied, rfl⟩ := expression.apply_consistent isPlain followed
      obtain ⟨final, run⟩ := ih others rest
      refine ⟨final, ?_⟩
      rw [List.foldlM_cons, applied]
      exact run

/-- Expressions that keep to the rules are accepted. -/
theorem IsConsistent.accepted {expressions : List Expression}
    (consistent : IsConsistent expressions)
    (plain : ∀ expression ∈ expressions, expression.IsPlain) :
    ∃ final, expressions.foldlM State.apply ⟨[], []⟩ = some final := by
  obtain ⟨places, through⟩ := Option.isSome_iff_exists.mp consistent
  have start : (fun _ => Standing.free) = Entries.places .free [] :=
    funext fun path => (places_nil path).symm
  rw [start] at through
  exact apply_of_through plain through

end RobotConsole.Toml
