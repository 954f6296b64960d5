import Mathlib.Data.List.Basic
import RobotConsole.Toml.Document

/-!
# Expressions change one item each

Whatever an expression does to the tables of a document, it does under one key of the outermost
table: it looks at the item there, and renews it or is refused.  Only tables are ever renewed.  So
what some keys come to does not depend on expressions under other keys: pairs under known keys come
to their own items among any other expressions that are accepted by themselves.
-/

set_option autoImplicit false

namespace RobotConsole.Toml

/-! ## Items under keys -/

/-- Whether an item may still be added to. -/
def Item.isTable : Item → Bool
  | .table _ _ | .tables _ => true
  | _ => false

namespace Entries

@[simp]
theorem item?_nil (key : String) : item? [] key = none := rfl

theorem item?_cons (held : String) (item : Item) (rest : Entries) (key : String) :
    item? ((held, item) :: rest) key = if held = key then some item else item? rest key := by
  by_cases same : held = key <;> simp [item?, same]

theorem item?_eq_none {entries : Entries} {key : String} (missing : key ∉ entries.map Prod.fst) :
    entries.item? key = none := by
  induction entries with
  | nil => rfl
  | cons entry rest ih =>
      obtain ⟨apart, others⟩ := not_or.mp (mt List.mem_cons.mpr missing)
      rw [item?_cons, if_neg (Ne.symm apart), ih others]

theorem item?_set (key : String) (item : Item) (entries : Entries) (other : String) :
    (entries.set key item).item? other = if key = other then some item
      else entries.item? other := by
  induction entries with
  | nil => exact item?_cons key item [] other
  | cons entry rest ih =>
      obtain ⟨held, before⟩ := entry
      by_cases same : held = key
      · rw [set, if_pos same, item?_cons, item?_cons, same]
        by_cases wanted : key = other <;> simp [wanted]
      · rw [set, if_neg same, item?_cons, item?_cons, ih]
        by_cases wanted : held = other
        · have apart : key ≠ other := fun equal => same (wanted.trans equal.symm)
          simp [wanted, apart]
        · simp [wanted]

theorem set_of_missing {key : String} {entries : Entries} (missing : entries.item? key = none)
    (item : Item) :
    entries.set key item = entries ++ [(key, item)] := by
  induction entries with
  | nil => rfl
  | cons entry rest ih =>
      obtain ⟨held, before⟩ := entry
      rw [item?_cons] at missing
      by_cases same : held = key
      · rw [if_pos same] at missing
        cases missing
      · rw [if_neg same] at missing
        rw [set, if_neg same, ih missing]
        rfl

end Entries

/-! ## Tables on the way -/

namespace Item

def inner : Item → Entries
  | .table _ entries => entries
  | .tables members => members.getLast?.getD []
  | _ => []

def withInner (changed : Entries) : Item → Item
  | .table origin _ => .table origin changed
  | .tables members => .tables (members.dropLast ++ [changed])
  | item => item

def isDotted : Item → Bool
  | .table origin _ => origin == .dotted
  | _ => false

theorem isTable_withInner (item : Item) (changed : Entries) :
    (item.withInner changed).isTable = item.isTable := by
  cases item <;> rfl

end Item

namespace Entries

def touch (made : Origin) (passes : Origin → Bool) : Option Item → Option Item
  | none => some (.table made [])
  | some (.table origin entries) => if passes origin then some (.table origin entries) else none
  | some (.tables (member :: members)) => some (.tables (member :: members))
  | some _ => none

theorem isTable_of_touch {made : Origin} {passes : Origin → Bool} {held : Option Item}
    {item : Item} (touched : touch made passes held = some item) :
    item.isTable = true ∧ ∀ before ∈ held, before.isTable = true := by
  unfold touch at touched
  split at touched
  · cases touched
    exact ⟨rfl, nofun⟩
  · split at touched
    · cases touched
      exact ⟨rfl, by rintro _ ⟨⟩; rfl⟩
    · cases touched
  · cases touched
    exact ⟨rfl, by rintro _ ⟨⟩; rfl⟩
  · cases touched

theorem changeAt_cons (made : Origin) (passes : Origin → Bool)
    (change : Bool → Entries → Option Entries) (name : String) (path : List String)
    (isDotted : Bool) (entries : Entries) :
    changeAt made passes change (name :: path) isDotted entries =
      (touch made passes (entries.item? name)).bind fun item =>
        (changeAt made passes change path item.isDotted item.inner).map fun changed =>
          entries.set name (item.withInner changed) := by
  rw [changeAt]
  cases entries.item? name with
  | none => rfl
  | some item =>
      cases item with
      | table origin inner =>
          dsimp only [touch]
          split <;> rfl
      | tables members =>
          cases members with
          | nil => rfl
          | cons member members =>
              have last : (member :: members).getLast? =
                  some ((member :: members).getLast (List.cons_ne_nil _ _)) :=
                List.getLast?_eq_some_getLast (List.cons_ne_nil _ _)
              simp only [touch, Item.inner, Item.isDotted, last, Option.bind_some, Option.getD_some]
              rfl
      | text _ | whole _ | boolean | float | date | array | braces _ => rfl

/-! ## Renewed items -/

/-- What becomes of the item under the key of a header. -/
def renewHeader : Option Item → Option Item
  | none => some (.table .header [])
  | some (.table .onTheWay below) => some (.table .header below)
  | some _ => none

def renewMember : Option Item → Option Item
  | none => some (.tables [[]])
  | some (.tables members) => some (.tables (members ++ [[]]))
  | some _ => none

def renewNone (item : Item) (held : Option Item) : Option Item :=
  if held.isSome then none else some item

/-- The change renews the item under a key or fails.  An item that was there before is a table
and stays one; a new item is one if the change is `tabular`. -/
def Renews (key : String) (tabular : Prop) (change : Entries → Option Entries) : Prop :=
  ∃ renew : Option Item → Option Item,
    (∀ held item, renew (some held) = some item → held.isTable = true ∧ item.isTable = true) ∧
      (tabular → ∀ held item, renew held = some item → item.isTable = true) ∧
        ∀ entries : Entries,
          change entries = (renew (entries.item? key)).map fun item => entries.set key item

theorem renews_changeAt (made : Origin) (passes : Origin → Bool)
    (change : Bool → Entries → Option Entries) (key : String) (path : List String)
    (isDotted : Bool) (tabular : Prop) :
    Renews key tabular (changeAt made passes change (key :: path) isDotted) := by
  have tables (held : Option Item) (renewed : Item)
      (found : ((touch made passes held).bind fun item =>
        (changeAt made passes change path item.isDotted item.inner).map item.withInner) =
          some renewed) :
      renewed.isTable = true ∧ ∀ before ∈ held, before.isTable = true := by
    obtain ⟨item, touched, changed⟩ := Option.bind_eq_some_iff.mp found
    obtain ⟨below, -, rfl⟩ := Option.map_eq_some_iff.mp changed
    rw [Item.isTable_withInner]
    exact isTable_of_touch touched
  refine ⟨_, fun held item found => ?_, fun _ held item found => (tables held item found).1, ?_⟩
  · exact ⟨(tables _ item found).2 held rfl, (tables _ item found).1⟩
  · intro entries
    rw [changeAt_cons, Option.map_bind]
    simp only [Function.comp_def, Option.map_map]

def firstPart (path : List String) (key : String) : String :=
  path.headD key

theorem define_nil (key : String) (item : Item) (entries : Entries) :
    define [] key item entries =
      (renewNone item (entries.item? key)).map fun item => entries.set key item := by
  rw [define, changeAt]
  cases held : entries.item? key with
  | none => simp [renewNone, set_of_missing held]
  | some before => simp [renewNone]

theorem openTable_nil (key : String) (entries : Entries) :
    openTable [] key entries =
      (renewHeader (entries.item? key)).map fun item => entries.set key item := by
  rw [openTable, changeAt]
  cases held : entries.item? key with
  | none => simp [renewHeader, set_of_missing held]
  | some item =>
      cases item with
      | table origin below => cases origin <;> simp [renewHeader]
      | text _ | whole _ | boolean | float | date | array | braces _ | tables _ =>
          simp [renewHeader]

theorem openMember_nil (key : String) (entries : Entries) :
    openMember [] key entries =
      (renewMember (entries.item? key)).map fun item => entries.set key item := by
  rw [openMember, changeAt]
  cases held : entries.item? key with
  | none => simp [renewMember, set_of_missing held]
  | some item =>
      cases item with
      | text _ | whole _ | boolean | float | date | array | braces _ | table _ _ | tables _ =>
          simp [renewMember]

theorem isTable_of_renewHeader {held : Option Item} {item : Item}
    (found : renewHeader held = some item) :
    item.isTable = true ∧ ∀ before ∈ held, before.isTable = true := by
  unfold renewHeader at found
  split at found
  · cases found
    exact ⟨rfl, nofun⟩
  · cases found
    exact ⟨rfl, by rintro _ ⟨⟩; rfl⟩
  · cases found

theorem isTable_of_renewMember {held : Option Item} {item : Item}
    (found : renewMember held = some item) :
    item.isTable = true ∧ ∀ before ∈ held, before.isTable = true := by
  unfold renewMember at found
  split at found
  · cases found
    exact ⟨rfl, nofun⟩
  · cases found
    exact ⟨rfl, by rintro _ ⟨⟩; rfl⟩
  · cases found

theorem renews_define (path : List String) (key : String) (item : Item) :
    Renews (firstPart path key) (path ≠ []) (define path key item) := by
  cases path with
  | cons first path => exact renews_changeAt _ _ _ first path false _
  | nil => exact ⟨renewNone item, fun _ _ => nofun, fun long => absurd rfl long,
      define_nil key item⟩

theorem renews_openTable (path : List String) (key : String) :
    Renews (firstPart path key) True (openTable path key) := by
  cases path with
  | cons first path => exact renews_changeAt _ _ _ first path false _
  | nil =>
      refine ⟨renewHeader, ?_, fun _ held item found => (isTable_of_renewHeader found).1,
        openTable_nil key⟩
      intro held item found
      exact ⟨(isTable_of_renewHeader found).2 held rfl, (isTable_of_renewHeader found).1⟩

theorem renews_openMember (path : List String) (key : String) :
    Renews (firstPart path key) True (openMember path key) := by
  cases path with
  | cons first path => exact renews_changeAt _ _ _ first path false _
  | nil =>
      refine ⟨renewMember, ?_, fun _ held item found => (isTable_of_renewMember found).1,
        openMember_nil key⟩
      intro held item found
      exact ⟨(isTable_of_renewMember found).2 held rfl, (isTable_of_renewMember found).1⟩

theorem renews_defineIn (header path : List String) (key : String) (item : Item) :
    Renews (firstPart (header ++ path) key) (header ++ path ≠ [])
      (defineIn header path key item) := by
  cases header with
  | nil => exact renews_define path key item
  | cons first header => exact renews_changeAt _ _ _ first header false _

end Entries

/-! ## Expressions -/

def Key.first (key : Key) : String :=
  Entries.firstPart key.path key.last

theorem Key.exists_parts (key : Key) : ∃ path, key.parts = key.first :: path := by
  obtain ⟨path, last⟩ := key
  cases path with
  | nil => exact ⟨[], rfl⟩
  | cons first path => exact ⟨path ++ [last], rfl⟩

namespace Expression

/-- The key of the outermost table under which an expression makes its change, if pairs belong to
the table `current`. -/
def target (current : List String) : Expression → String
  | .pair key _ => Entries.firstPart (current ++ key.path) key.last
  | .header key => key.first
  | .member key => key.first

def opened (current : List String) : Expression → List String
  | .pair _ _ => current
  | .header key => key.parts
  | .member key => key.parts

def headed? : Expression → Option Key
  | .pair _ _ => none
  | .header key => some key
  | .member key => some key

/-- Whether the item under the key of the outermost table is a table after the change. -/
def IsTabular (current : List String) : Expression → Prop
  | .pair key _ => current ++ key.path ≠ []
  | .header _ | .member _ => True

theorem apply_eq (current : List String) (expression : Expression) :
    ∃ renew : Option Item → Option Item,
      (∀ held item, renew (some held) = some item → held.isTable = true ∧ item.isTable = true) ∧
        (expression.IsTabular current → ∀ held item, renew held = some item → item.isTable = true) ∧
          ∀ entries : Entries, State.apply ⟨entries, current⟩ expression =
            (renew (entries.item? (expression.target current))).map fun item =>
              ⟨entries.set (expression.target current) item, expression.opened current⟩ := by
  have lift {key : String} {tabular : Prop} {change : Entries → Option Entries}
      (renews : Entries.Renews key tabular change) (next : List String) :
      ∃ renew : Option Item → Option Item,
        (∀ held item, renew (some held) = some item → held.isTable = true ∧ item.isTable = true) ∧
          (tabular → ∀ held item, renew held = some item → item.isTable = true) ∧
            ∀ entries : Entries, ((change entries).map fun entries => State.mk entries next) =
              (renew (entries.item? key)).map fun item => ⟨entries.set key item, next⟩ := by
    obtain ⟨renew, tables, made, same⟩ := renews
    refine ⟨renew, tables, made, ?_⟩
    intro entries
    rw [same, Option.map_map]
    rfl
  cases expression with
  | pair key item => exact lift (Entries.renews_defineIn current key.path key.last item) current
  | header key => exact lift (Entries.renews_openTable key.path key.last) key.parts
  | member key => exact lift (Entries.renews_openMember key.path key.last) key.parts

/-- Outside all tables, a key without dots gets its item if it has none. -/
theorem apply_bare (entries : Entries) (name : String) (item : Item) :
    State.apply ⟨entries, []⟩ (.pair ⟨[], name⟩ item) =
      if (entries.item? name).isSome then none else some ⟨entries.set name item, []⟩ := by
  cases held : entries.item? name with
  | none => simp [State.apply, Entries.defineIn, Entries.define, Entries.changeAt, held,
      Entries.set_of_missing held]
  | some before => simp [State.apply, Entries.defineIn, Entries.define, Entries.changeAt, held]

/-- An expression is accepted alike by entries that are alike under its key. -/
theorem apply_alike {entries others : Entries} {current : List String} {expression : Expression}
    {next : State}
    (alike : entries.item? (expression.target current) = others.item? (expression.target current))
    (accepted : State.apply ⟨others, current⟩ expression = some next) :
    ∃ item, next = ⟨others.set (expression.target current) item, expression.opened current⟩ ∧
      State.apply ⟨entries, current⟩ expression =
        some ⟨entries.set (expression.target current) item, expression.opened current⟩ := by
  obtain ⟨renew, -, -, same⟩ := apply_eq current expression
  rw [same] at accepted
  obtain ⟨item, renewed, rfl⟩ := Option.map_eq_some_iff.mp accepted
  exact ⟨item, rfl, by rw [same, alike, renewed]; rfl⟩

end Expression

/-! ## Known keys among others -/

/-- The expressions define items under known keys of the outermost table, each key once, among other
expressions, none of which has to do with a known key. -/
inductive Splits (known : List String) : List Expression → Entries → List Expression → Prop
  | pair {name : String} {item : Item} {expressions others : List Expression} {pairs : Entries}
    (isKnown : name ∈ known)
      (fresh : name ∉ pairs.map Prod.fst) (more : Splits known expressions pairs others) :
      Splits known (.pair ⟨[], name⟩ item :: expressions) ((name, item) :: pairs) others
  | foreign {key : Key} {item : Item} {expressions others : List Expression} {pairs : Entries}
      (isForeign : key.first ∉ known) (more : Splits known expressions pairs others) :
      Splits known (.pair key item :: expressions) pairs (.pair key item :: others)
  /-- From the first header on. -/
  | tables {expressions : List Expression}
      (headed : ∀ first ∈ expressions.head?, first.headed?.isSome = true)
      (areForeign : ∀ expression ∈ expressions, ∀ key, expression.headed? = some key →
        key.first ∉ known) :
      Splits known expressions [] expressions

theorem Splits.known_of_mem {known : List String} {expressions others : List Expression}
    {pairs : Entries}
    (splits : Splits known expressions pairs others) {name : String}
    (member : name ∈ pairs.map Prod.fst) : name ∈ known := by
  induction splits with
  | pair isKnown fresh more ih =>
      rcases List.mem_cons.mp member with rfl | later
      · exact isKnown
      · exact ih later
  | foreign isForeign more ih => exact ih member
  | tables headed areForeign => cases member

section Alike

variable {known : List String} {entries others : Entries}

/-- The entries are alike under all keys but the known ones. -/
def AlikeBut (known : List String) (entries others : Entries) : Prop :=
  ∀ key, key ∉ known → entries.item? key = others.item? key

theorem AlikeBut.set (alike : AlikeBut known entries others) (key : String) (item : Item) :
    AlikeBut known (entries.set key item) (others.set key item) := by
  intro other foreign
  rw [Entries.item?_set, Entries.item?_set, alike other foreign]

theorem AlikeBut.set_known (alike : AlikeBut known entries others) {name : String}
    (isKnown : name ∈ known) (item : Item) :
    AlikeBut known (entries.set name item) others := by
  intro other foreign
  have apart : name ≠ other := by
    rintro rfl
    exact foreign isKnown
  rw [Entries.item?_set, if_neg apart, alike other foreign]

/-- An expression under another key is accepted alike, and leaves the known keys alone. -/
theorem AlikeBut.step (alike : AlikeBut known entries others) {current : List String}
    {expression : Expression} (foreign : expression.target current ∉ known) {next : State}
    (accepted : State.apply ⟨others, current⟩ expression = some next) :
    ∃ renewed, State.apply ⟨entries, current⟩ expression = some ⟨renewed, next.current⟩ ∧
      next.current = expression.opened current ∧ AlikeBut known renewed next.entries ∧
        ∀ name ∈ known, renewed.item? name = entries.item? name := by
  obtain ⟨item, rfl, acceptedToo⟩ := Expression.apply_alike (alike _ foreign) accepted
  refine ⟨_, acceptedToo, rfl, alike.set _ item, ?_⟩
  intro name isKnown
  have apart : expression.target current ≠ name := by
    rintro rfl
    exact foreign isKnown
  rw [Entries.item?_set, if_neg apart]

def Inside (known current : List String) : Prop :=
  ∃ first path, current = first :: path ∧ first ∉ known

theorem Expression.foreign_inside {expression : Expression} {current : List String}
    (headed : Inside known current ∨ expression.headed?.isSome = true)
    (isForeign : ∀ key, expression.headed? = some key → key.first ∉ known) :
    expression.target current ∉ known ∧ Inside known (expression.opened current) := by
  cases expression with
  | pair key item =>
      rcases headed with ⟨first, path, rfl, foreign⟩ | isHeader
      · exact ⟨foreign, first, path, rfl, foreign⟩
      · cases isHeader
  | header key | member key =>
      obtain ⟨path, parts⟩ := key.exists_parts
      exact ⟨isForeign key rfl, key.first, path, parts, isForeign key rfl⟩

/-- Tables under other keys are accepted alike, and leave the known keys alone. -/
theorem tables_alike {expressions : List Expression} {current : List String}
    (headed : Inside known current ∨ ∀ first ∈ expressions.head?, first.headed?.isSome = true)
    (areForeign : ∀ expression ∈ expressions, ∀ key, expression.headed? = some key →
      key.first ∉ known)
    (alike : AlikeBut known entries others) {final : State}
    (accepted : expressions.foldlM State.apply ⟨others, current⟩ = some final) :
    ∃ reached, expressions.foldlM State.apply ⟨entries, current⟩ = some reached ∧
      ∀ name ∈ known, reached.entries.item? name = entries.item? name := by
  induction expressions generalizing entries others current with
  | nil => exact ⟨⟨entries, current⟩, rfl, fun _ _ => rfl⟩
  | cons expression expressions ih =>
      obtain ⟨next, applied, rest⟩ := Option.bind_eq_some_iff.mp accepted
      obtain ⟨isForeign, later⟩ := List.forall_mem_cons.mp areForeign
      obtain ⟨foreign, inside⟩ :=
        Expression.foreign_inside (headed.imp_right fun first => first _ rfl) isForeign
      obtain ⟨renewed, appliedToo, opened, alikeThen, kept⟩ := alike.step foreign applied
      obtain ⟨reached, restToo, keptThen⟩ := ih (Or.inl (opened ▸ inside)) later alikeThen rest
      refine ⟨reached, ?_, fun name isKnown => (keptThen name isKnown).trans (kept name isKnown)⟩
      rw [List.foldlM_cons, appliedToo]
      exact restToo

/-- Further pairs are looked up before what was set earlier under another key. -/
theorem Entries.item?_or_set (entries : Entries) {pairs : Entries} {name : String} (item : Item)
    (fresh : name ∉ pairs.map Prod.fst) (other : String) :
    (pairs.item? other).or ((entries.set name item).item? other) =
      (Entries.item? ((name, item) :: pairs) other).or (entries.item? other) := by
  rw [Entries.item?_set, Entries.item?_cons]
  by_cases same : name = other
  · have nothing : pairs.item? other = none := by
      apply Entries.item?_eq_none
      exact same ▸ fresh
    rw [if_pos same, if_pos same, nothing]
    rfl
  · rw [if_neg same, if_neg same]

/-- Pairs under known keys come to their items, if the other expressions are accepted by
themselves. -/
theorem Splits.run {expressions foreign : List Expression} {pairs : Entries}
    (splits : Splits known expressions pairs foreign)
    (alike : AlikeBut known entries others)
    (free : ∀ name ∈ pairs.map Prod.fst, entries.item? name = none)
    {final : State} (accepted : foreign.foldlM State.apply ⟨others, []⟩ = some final) :
    ∃ reached, expressions.foldlM State.apply ⟨entries, []⟩ = some reached ∧
      ∀ name ∈ known, reached.entries.item? name = (pairs.item? name).or (entries.item? name) := by
  induction splits generalizing entries others with
  | @pair name item expressions foreign pairs isKnown fresh more ih =>
      obtain ⟨missing, freeToo⟩ := List.forall_mem_cons.mp free
      have applied : State.apply ⟨entries, []⟩ (.pair ⟨[], name⟩ item) =
          some ⟨entries.set name item, []⟩ := by
        rw [Expression.apply_bare, missing]
        rfl
      have stillFree : ∀ other ∈ pairs.map Prod.fst,
          (entries.set name item).item? other = none := by
        intro other member
        have apart : name ≠ other := by
          rintro rfl
          exact fresh member
        rw [Entries.item?_set, if_neg apart, freeToo other member]
      obtain ⟨reached, rest, told⟩ := ih (alike.set_known isKnown item) stillFree accepted
      refine ⟨reached, ?_, ?_⟩
      · rw [List.foldlM_cons, applied]
        exact rest
      · intro other otherKnown
        rw [told other otherKnown, Entries.item?_or_set entries item fresh]
  | @foreign key item expressions foreign pairs isForeign more ih =>
      obtain ⟨next, applied, rest⟩ := Option.bind_eq_some_iff.mp accepted
      have foreign : Expression.target [] (.pair key item) ∉ known := isForeign
      obtain ⟨renewed, appliedToo, opened, alikeThen, kept⟩ := alike.step foreign applied
      have stillFree : ∀ name ∈ pairs.map Prod.fst, renewed.item? name = none := by
        intro name member
        rw [kept name (more.known_of_mem member), free name member]
      obtain ⟨after, current⟩ := next
      obtain rfl : current = [] := opened
      obtain ⟨reached, restToo, told⟩ := ih alikeThen stillFree rest
      refine ⟨reached, ?_, ?_⟩
      · rw [List.foldlM_cons, appliedToo]
        exact restToo
      · intro name isKnown
        rw [told name isKnown, kept name isKnown]
  | tables headed areForeign => exact tables_alike (Or.inr headed) areForeign alike accepted

end Alike

end RobotConsole.Toml
