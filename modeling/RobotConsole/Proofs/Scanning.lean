import Mathlib.Data.List.TakeWhile
import RobotConsole.CommandLine

/-!
# How words are bound

What a scan binds at a level that is a command: options with their values attached are bound one
after the other, and once `--` is passed every word goes to the next place.  A place is only checked
when the next one is filled or the line is over, so a place holds its words for a while before they
are bound.
-/

set_option autoImplicit false

namespace RobotConsole.CommandLine

/-! ## Looking up what is bound -/

theorem not_mem_of_nodup {names later : List String} {name : String}
    (distinct : (names ++ name :: later).Nodup) :
    name ∉ names := by
  intro again
  exact (List.nodup_append.mp distinct).2.2 name again name List.mem_cons_self rfl

namespace Bindings

variable {one other : Bindings} {name : String} {values : List String}

@[simp]
theorem values?_nil : values? [] name = none := rfl

@[simp]
theorem values?_cons (held : String) (rest : Bindings) :
    values? ((held, values) :: rest) name = if held = name then some values
      else rest.values? name := by
  by_cases same : held = name <;> simp [values?, same]

@[simp]
theorem values?_append (one other : Bindings) :
    values? (one ++ other) name = (one.values? name).or (other.values? name) := by
  simp only [values?, List.find?_append, Option.map_or]

theorem values?_eq_none_iff : one.values? name = none ↔ name ∉ one.map Prod.fst := by
  rw [values?, Option.map_eq_none_iff, List.find?_eq_none]
  constructor
  · intro absent named
    obtain ⟨binding, member, rfl⟩ := List.mem_map.mp named
    exact absent binding member (beq_self_eq_true _)
  · intro fresh binding member same
    exact fresh (List.mem_map.mpr ⟨binding, member, eq_of_beq same⟩)

theorem isBound_eq_false (fresh : name ∉ one.map Prod.fst) : one.isBound name = false := by
  rw [isBound, values?_eq_none_iff.mpr fresh]
  rfl

/-- What is bound under a name does not depend on the order, as long as no name is bound twice. -/
theorem values?_eq_of_perm (same : one.Perm other) (distinct : (one.map Prod.fst).Nodup)
    (name : String) :
    one.values? name = other.values? name := by
  induction same with
  | nil => rfl
  | cons binding _ ih =>
      obtain ⟨held, values⟩ := binding
      rw [values?_cons, values?_cons, ih (List.nodup_cons.mp distinct).2]
  | swap first second rest =>
      obtain ⟨left, leftValues⟩ := first
      obtain ⟨right, rightValues⟩ := second
      -- the two names differ, so at most one of them is the one that is looked up
      have apart : right ≠ left := by
        intro twice
        simp [twice] at distinct
      simp only [values?_cons]
      split
      · rename_i isRight
        rw [if_neg fun isLeft => apart (isRight.trans isLeft.symm)]
      · rfl
  | trans before _ ihBefore ihAfter =>
      exact (ihBefore distinct).trans (ihAfter ((before.map Prod.fst).nodup_iff.mp distinct))

theorem add_eq_append (fresh : name ∉ one.map Prod.fst) :
    one.add name values = one ++ [(name, values)] := by
  induction one with
  | nil => rfl
  | cons binding rest ih =>
      obtain ⟨held, before⟩ := binding
      rw [List.map_cons, List.mem_cons, not_or] at fresh
      rw [add, if_neg (Ne.symm fresh.1), ih fresh.2]
      rfl

end Bindings

/-! ## Options -/

/-- An option with the value that is attached to it; a flag has none. -/
structure Setting where
  name : String
  value : Option String
  deriving DecidableEq, Repr

namespace Setting

def word (setting : Setting) : String :=
  match setting.value with
  | none => "--" ++ setting.name
  | some value => "--" ++ setting.name ++ "=" ++ value

def binding (setting : Setting) : String × List String :=
  (setting.name, setting.value.toList)

end Setting

namespace Level

/-- A level has an option of this name, which takes this value, or which is a flag if there is no
value. -/
def Knows (level : Level) (setting : Setting) : Prop :=
  ∃ choice, (level.choices.find? fun choice => choice.name == setting.name) = some choice ∧
    match setting.value with
    | none => choice.effect = .flag
    | some value => ∃ shape, choice.effect = .value shape ∧ shape.fault? value = none

theorem choices_plain (level : Level) :
    ∀ choice ∈ level.choices, choice.name.toList ≠ [] ∧
      choice.name.toList.all (· != '=') = true := by
  cases level <;> decide

theorem Knows.plain {level : Level} {setting : Setting} (known : level.Knows setting) :
    setting.name.toList ≠ [] ∧ ∀ c ∈ setting.name.toList, (c != '=') = true := by
  obtain ⟨choice, found, -⟩ := known
  have named : choice.name = setting.name := by simpa using List.find?_some found
  rw [← named, ← List.all_eq_true]
  exact level.choices_plain choice (List.mem_of_find?_eq_some found)

theorem branches_plain (level : Level) :
    ∀ branch ∈ level.branches, branch.1.toList.head? ≠ some '-' := by
  cases level <;> decide

/-- A word that begins with a hyphen does not lead on. -/
theorem isWord_hyphen (level : Level) {word : String} (hyphen : word.toList.head? = some '-') :
    level.isWord word = false := by
  have noHelp : (word == helpWord) = false := by
    rw [beq_eq_false_iff_ne]
    rintro rfl
    exact absurd hyphen (by decide)
  have noBranch : level.branch? word = none := by
    rw [branch?, Option.map_eq_none_iff, List.find?_eq_none]
    intro branch member same
    rw [← eq_of_beq same] at hyphen
    exact level.branches_plain branch member hyphen
  simp [isWord, noHelp, noBranch]

end Level

namespace Scan

theorem checkValues_eq_none {shape : Shape} {values : List String}
    (fits : ∀ value ∈ values, shape.fault? value = none) :
    checkValues shape values = none := by
  induction values with
  | nil => rfl
  | cons value rest ih =>
      rw [checkValues, fits value List.mem_cons_self]
      exact ih fun later member => fits later (List.mem_cons_of_mem value member)

theorem bind_eq_ok (slot : Slot) {values : List String} (scan : Scan) (given : values ≠ [])
    (fresh : slot.name ∉ scan.bound.map Prod.fst)
    (fits : ∀ value ∈ values, slot.shape.fault? value = none) :
    bind slot values scan = .ok { scan with bound := scan.bound ++ [(slot.name, values)] } := by
  have nonempty : values.isEmpty = false := by simpa using given
  simp [bind, nonempty, Bindings.isBound_eq_false fresh, checkValues_eq_none fits,
    Bindings.add_eq_append fresh]

/-- A scan among the options, with nothing pending. -/
def amid (bound : Bindings) : Scan := ⟨bound, none, false, 0, false⟩

variable {level : Level} {bound : Bindings}

theorem bindFlag_amid {name : String} (fresh : name ∉ bound.map Prod.fst) :
    (amid bound).bindFlag name = .ok (amid (bound ++ [(name, [])])) := by
  have unbound : (amid bound).bound.isBound name = false := Bindings.isBound_eq_false fresh
  have added : (amid bound).bound.add name [] = bound ++ [(name, [])] :=
    Bindings.add_eq_append fresh
  have settled : (amid bound).settle = .ok (amid bound) := rfl
  unfold bindFlag
  rw [settled]
  simp only [Bind.bind, Except.bind, unbound, added, Bool.false_eq_true, if_false]
  rfl

theorem attach_amid {choice : Choice} {shape : Shape} {value : String}
    (fresh : choice.name ∉ bound.map Prod.fst) (fits : shape.fault? value = none) :
    (amid bound).attach choice shape value = .ok (amid (bound ++ [(choice.name, [value])])) :=
  bind_eq_ok (choiceSlot choice shape) (amid bound) (List.cons_ne_nil value []) fresh
    (by simpa [choiceSlot] using fits)

theorem take_long {word : String} {rest : List Char} (long : word.toList = '-' :: '-' :: rest)
    (more : rest ≠ []) :
    (amid bound).take level word = (amid bound).takeLong level rest := by
  cases rest with
  | nil => exact absurd rfl more
  | cons c rest => simp [take, amid, long]

theorem take_setting {setting : Setting} (known : level.Knows setting)
    (fresh : setting.name ∉ bound.map Prod.fst) :
    (amid bound).take level setting.word = .ok (amid (bound ++ [setting.binding])) := by
  obtain ⟨named, plain⟩ := known.plain
  obtain ⟨choice, found, fits⟩ := known
  have sameName : choice.name = setting.name := by simpa using List.find?_some found
  have wholeName : String.ofList setting.name.toList = setting.name := String.ofList_toList
  cases given : setting.value with
  | none =>
      -- there is no equals sign, so the word is a flag's name
      rw [given] at fits
      have word : setting.word.toList =
          '-' :: '-' :: setting.name.toList := by simp [Setting.word, given]
      have name : setting.name.toList.takeWhile (· != '=') = setting.name.toList :=
        List.takeWhile_eq_self_iff.mpr plain
      have value : setting.name.toList.dropWhile (· != '=') = [] :=
        List.dropWhile_eq_nil_iff.mpr plain
      rw [take_long word named]
      simp only [takeLong, name, value, wholeName, found, raise, fits]
      rw [sameName, bindFlag_amid fresh]
      simp [Setting.binding, given]
  | some text =>
      rw [given] at fits
      obtain ⟨shape, effect, sound⟩ := fits
      -- the name ends at the first equals sign, whatever the value contains
      have word : setting.word.toList =
          '-' :: '-' :: (setting.name.toList ++ '=' :: text.toList) := by
        simp [Setting.word, given]
      have name : (setting.name.toList ++ '=' :: text.toList).takeWhile (· != '=') =
          setting.name.toList := by
        rw [List.takeWhile_append_of_pos plain]
        simp
      have value : (setting.name.toList ++ '=' :: text.toList).dropWhile (· != '=') =
          '=' :: text.toList := by
        rw [List.dropWhile_append_of_pos plain]
        simp
      rw [take_long word (by simp)]
      simp only [takeLong, name, value, wholeName, found, effect, String.ofList_toList]
      rw [attach_amid (by rwa [sameName]) sound, sameName]
      simp [Setting.binding, given]

end Scan

theorem scanWords_settings {level : Level} (settings : List Setting) (rest : List String)
    (known : ∀ setting ∈ settings, level.Knows setting) (bound : Bindings)
    (distinct : (bound.map Prod.fst ++ settings.map Setting.name).Nodup) :
    scanWords level (.amid bound) (settings.map Setting.word ++ rest) =
      scanWords level (.amid (bound ++ settings.map Setting.binding)) rest := by
  induction settings generalizing bound with
  | nil => simp
  | cons setting settings ih =>
      have fresh : setting.name ∉ bound.map Prod.fst := not_mem_of_nodup distinct
      have hyphen : setting.word.toList.head? = some '-' := by
        unfold Setting.word
        split <;> simp
      have taken := Scan.take_setting (known setting List.mem_cons_self) fresh
      rw [List.map_cons, List.cons_append, scanWords, level.isWord_hyphen hyphen, Bool.and_false,
        if_neg Bool.false_ne_true, taken]
      dsimp only
      rw [ih (fun later member => known later (List.mem_cons_of_mem setting member)),
        List.append_assoc]
      · rfl
      · simpa [Setting.binding] using distinct

theorem scanWords_first_settings {level : Level} (settings : List Setting) (rest : List String)
    (known : ∀ setting ∈ settings, level.Knows setting)
    (distinct : (settings.map Setting.name).Nodup) :
    scanWords level .start (settings.map Setting.word ++ rest) =
      scanWords level (.amid (settings.map Setting.binding)) rest :=
  scanWords_settings settings rest known [] distinct

/-! ## Places -/

namespace Scan

variable {level : Level} {scan : Scan} {bound : Bindings} {slot : Slot} {place : Nat}
    {word : String}

/-- A scan among the places, with nothing pending. -/
def past (bound : Bindings) (place : Nat) : Scan := ⟨bound, none, false, place, true⟩

/-- A scan with some words in a place that are not bound yet. -/
def holding (bound : Bindings) (slot : Slot) (words : List String) (place : Nat) : Scan :=
  ⟨bound, some ⟨slot, false, words⟩, false, place, true⟩

/-- All that is pending is sound, and is the only word of its place. -/
structure Sound (scan : Scan) (bound : Bindings) (place : Nat) : Prop where
  trailing : scan.trailing = true
  at_place : scan.place = place
  single : ∀ pending ∈ scan.pending, pending.slot.many = false
  settles : scan.settle = .ok (past bound place)

theorem sound_past (bound : Bindings) (place : Nat) : (past bound place).Sound bound place :=
  ⟨rfl, rfl, by simp [past], rfl⟩

theorem settle_holding {words : List String} (given : words ≠ [])
    (fresh : slot.name ∉ bound.map Prod.fst)
    (fits : ∀ word ∈ words, slot.shape.fault? word = none) :
    (holding bound slot words place).settle = .ok (past (bound ++ [(slot.name, words)]) place) :=
  bind_eq_ok slot (past bound place) given fresh fits

theorem sound_holding (single : slot.many = false) (fresh : slot.name ∉ bound.map Prod.fst)
    (fits : slot.shape.fault? word = none) :
    (holding bound slot [word] place).Sound (bound ++ [(slot.name, [word])]) place :=
  ⟨rfl, rfl, by simpa [holding] using single,
    settle_holding (List.cons_ne_nil word []) fresh (by simpa using fits)⟩

theorem take_eq_fill (trailing : scan.trailing = true) (here : level.slots[scan.place]? = some slot)
    (single : ∀ pending ∈ scan.pending, pending.slot.many = false) (word : String) :
    scan.take level word = takePlace.fill word slot scan := by
  rw [Scan.take, if_pos trailing, takePlace, here]
  dsimp only
  cases held : scan.pending with
  | none => rfl
  | some pending =>
      dsimp only
      -- only a place for many words goes on taking them, and what is pending has room for one
      rw [if_neg]
      intro same
      simp only [Bool.and_eq_true, beq_iff_eq] at same
      have single := single pending held
      rw [same.2, same.1.1] at single
      cases single

theorem Sound.take (sound : scan.Sound bound place) (here : level.slots[place]? = some slot)
    (word : String) :
    scan.take level word = .ok (holding bound slot [word]
      (if slot.many then place else place + 1)) := by
  rw [take_eq_fill sound.trailing (by rw [sound.at_place]; exact here) sound.single]
  unfold takePlace.fill
  rw [sound.settles]
  rfl

theorem take_more (here : level.slots[place]? = some slot) (many : slot.many = true)
    (words : List String) (word : String) :
    (holding bound slot words place).take level word =
      .ok (holding bound slot (words ++ [word]) place) := by
  simp [Scan.take, takePlace, holding, here, many]

end Scan

/-! ## The end of a level -/

def Level.accepts (level : Level) (bound : Bindings) : Bool :=
  !level.hasBranches && !(level.rivals.any fun rivals =>
    bound.isBound rivals.1 && bound.isBound rivals.2) &&
    !(level.slots.any fun slot => !slot.many && !bound.isBound slot.name)

section Finish

variable {level : Level} {scan : Scan} {bound : Bindings} {place : Nat}

theorem finish_accepted (settles : scan.settle = .ok (.past bound place))
    (accepted : level.accepts bound = true) :
    finish level scan [] = .ok [⟨level, bound⟩] := by
  simp only [Level.accepts, Bool.and_eq_true, Bool.not_eq_true'] at accepted
  obtain ⟨⟨leaf, peace⟩, enough⟩ := accepted
  unfold finish
  rw [settles]
  simp only [Bind.bind, Except.bind, Scan.past, leaf, peace, enough, Bool.and_false,
    Bool.false_eq_true, if_false]
  rfl

theorem finish_rivals (settles : scan.settle = .ok (.past bound place))
    (leaf : level.hasBranches = false)
    (war : (level.rivals.any fun rivals => bound.isBound rivals.1 && bound.isBound rivals.2) =
      true) :
    finish level scan [] = .error .argumentConflict := by
  unfold finish
  rw [settles]
  simp only [Bind.bind, Except.bind, Scan.past, leaf, war, Bool.and_false, Bool.false_eq_true,
    if_false, if_true]
  rfl

theorem finish_error {fault : UsageFault} (settles : scan.settle = .error fault) (inner : Layers) :
    finish level scan inner = .error fault := by
  unfold finish
  rw [settles]
  rfl

/-- A level that leads on has no places and nothing that does not go together. -/
theorem finish_above {bound : Bindings} (above : level.hasBranches = true) {inner : Layers}
    (below : inner ≠ []) :
    finish level (.amid bound) inner = .ok (inner ++ [⟨level, bound⟩]) := by
  have led : inner.isEmpty = false := by simpa using below
  have settles : (Scan.amid bound).settle = .ok (Scan.amid bound) := rfl
  unfold finish
  rw [settles]
  cases level with
  | top | robot => simp [Bind.bind, Except.bind, led, Level.rivals, Level.slots, Scan.amid]; rfl
  | _ => cases above

end Finish

/-! ## All places of a level -/

/-- Words over places: one for each place, and all that are left for a place that takes many. -/
inductive Laid : List Slot → List String → Bindings → Prop where
  | nil : Laid [] [] []
  | one {slot : Slot} {slots : List Slot} {word : String} {words : List String}
      {bindings : Bindings}
      (single : slot.many = false) (fits : slot.shape.fault? word = none)
        (rest : Laid slots words bindings) :
      Laid (slot :: slots) (word :: words) ((slot.name, [word]) :: bindings)
  | noneLeft {slot : Slot} (many : slot.many = true) : Laid [slot] [] []
  | allLeft {slot : Slot} {word : String} {words : List String} (many : slot.many = true)
      (fits : ∀ word' ∈ word :: words, slot.shape.fault? word' = none) :
      Laid [slot] (word :: words) [(slot.name, word :: words)]

section Places

variable {level : Level} {scan : Scan} {bound : Bindings} {slot : Slot} {place : Nat}

theorem scanWords_place (sound : scan.Sound bound place) (here : level.slots[place]? = some slot)
    (word : String) (words : List String) :
    scanWords level scan (word :: words) =
      scanWords level (.holding bound slot [word] (if slot.many then place else place + 1))
        words := by
  have stays : scan.mayDescend = false := by simp [Scan.mayDescend, sound.trailing]
  rw [scanWords, stays, Bool.false_and, if_neg Bool.false_ne_true, sound.take here]

theorem scanWords_more (here : level.slots[place]? = some slot) (many : slot.many = true)
    (words held : List String) :
    scanWords level (.holding bound slot held place) words =
      finish level (.holding bound slot (held ++ words) place) [] := by
  induction words generalizing held with
  | nil => rw [scanWords, List.append_nil]
  | cons word words ih =>
      have stays : (Scan.holding bound slot held place).mayDescend = false := rfl
      rw [scanWords, stays, Bool.false_and, if_neg Bool.false_ne_true, Scan.take_more here many]
      dsimp only
      rw [ih, List.append_assoc, List.singleton_append]

theorem first_of_drop {slots : List Slot} (here : level.slots.drop place = slot :: slots) :
    level.slots[place]? = some slot ∧ level.slots.drop (place + 1) = slots := by
  constructor
  · rw [← List.head?_drop, here]
    rfl
  · rw [← List.tail_drop, here]
    rfl

theorem scanWords_laid {slots : List Slot} {words : List String} {bindings : Bindings}
    (laid : Laid slots words bindings) (sound : scan.Sound bound place)
    (here : level.slots.drop place = slots)
    (distinct : (bound.map Prod.fst ++ bindings.map Prod.fst).Nodup)
    {outcome : Except UsageFault Layers}
    (ends : ∀ (last : Scan) (place : Nat), last.settle = .ok (.past (bound ++ bindings) place) →
      finish level last [] = outcome) :
    scanWords level scan words = outcome := by
  -- by induction on the places: the word of the last place is still pending, but it is sound
  induction laid generalizing scan bound place with
  | nil =>
      rw [List.append_nil] at ends
      rw [scanWords]
      exact ends scan place sound.settles
  | @one slot slots word words bindings single fits rest ih =>
      obtain ⟨first, next⟩ := first_of_drop here
      have fresh : slot.name ∉ bound.map Prod.fst := not_mem_of_nodup distinct
      rw [scanWords_place sound first, single, if_neg Bool.false_ne_true]
      have same : bound ++ (slot.name, [word]) :: bindings =
          bound ++ [(slot.name, [word])] ++ bindings := by
        simp
      rw [same] at ends
      exact ih (Scan.sound_holding single fresh fits) next (by simpa using distinct) ends
  | noneLeft many =>
      rw [List.append_nil] at ends
      rw [scanWords]
      exact ends scan place sound.settles
  | @allLeft slot word words many fits =>
      obtain ⟨first, -⟩ := first_of_drop here
      have fresh : slot.name ∉ bound.map Prod.fst := not_mem_of_nodup distinct
      rw [scanWords_place sound first, if_pos many, scanWords_more first many]
      exact ends _ _ (Scan.settle_holding (List.cons_ne_nil word words) fresh fits)

theorem scanWords_unfit {next : Slot} {word : String} {fault : UsageFault}
    (sound : scan.Sound bound place)
    (here : level.slots[place]? = some slot) (later : level.slots[place + 1]? = some next)
    (single : slot.many = false)
    (fresh : slot.name ∉ bound.map Prod.fst) (unfit : slot.shape.fault? word = some fault)
    (words : List String) :
    scanWords level scan (word :: words) = .error fault := by
  have refused : (Scan.holding bound slot [word] (place + 1)).settle = .error fault := by
    simp [Scan.settle, Scan.holding, Scan.bind, Bindings.isBound_eq_false fresh, Scan.checkValues,
      unfit]
  rw [scanWords_place sound here, single, if_neg Bool.false_ne_true]
  -- the word is pending until the line is over or the next place is filled
  cases words with
  | nil =>
      rw [scanWords]
      exact finish_error refused []
  | cons other words =>
      have stays : (Scan.holding bound slot [word] (place + 1)).mayDescend = false := rfl
      rw [scanWords, stays, Bool.false_and, if_neg Bool.false_ne_true,
        Scan.take_eq_fill rfl later (by simpa [Scan.holding] using single)]
      unfold Scan.takePlace.fill
      rw [refused]
      rfl

end Places

/-! ## From level to level -/

def Level.descend? : Level → List String → Option Level
  | level, [] => some level
  | level, word :: words => (level.branch? word).bind fun next => next.descend? words

section Descent

variable {level last : Level} {words : List String} {rest : List String}

theorem Level.branch?_above {next : Level} {word : String}
    (branch : level.branch? word = some next) :
    level.hasBranches = true := by
  cases level <;> first | rfl | cases branch

theorem scanWords_branch {next : Level} {word : String} (branch : level.branch? word = some next)
    (bound : Bindings) (rest : List String) :
    scanWords level (.amid bound) (word :: rest) =
      match scanWords next .start rest with
      | .error fault => .error fault
      | .ok inner => finish level (.amid bound) inner := by
  have leads : level.isWord word =
      true := by simp [Level.isWord, Level.branch?_above branch, branch]
  have may : (Scan.amid bound).mayDescend = true := rfl
  rw [scanWords, may, leads, Bool.and_self, if_pos rfl]
  cases below : scanWords next .start rest <;> simp only [branch, below]

theorem scanWords_path_error {fault : UsageFault}
    (refused : scanWords last .start rest = .error fault) (word : String)
    (leads : level.descend? (word :: words) = some last) (bound : Bindings) :
    scanWords level (.amid bound) (word :: words ++ rest) = .error fault := by
  obtain ⟨next, branch, further⟩ := Option.bind_eq_some_iff.mp leads
  induction words generalizing level next word bound with
  | nil =>
      obtain rfl := Option.some.inj further
      rw [List.singleton_append, scanWords_branch branch, refused]
  | cons second words ih =>
      obtain ⟨after, branchAfter, furtherAfter⟩ := Option.bind_eq_some_iff.mp further
      have below : scanWords next .start (second :: words ++ rest) = .error fault :=
        ih second further [] after branchAfter furtherAfter
      rw [List.cons_append, scanWords_branch branch, below]

/-- What is bound at the last level comes first, and nothing is bound on the way there. -/
theorem scanWords_path_ok {layers : Layers} (inner : scanWords last .start rest = .ok layers)
    (below : layers ≠ [])
    (word : String) (leads : level.descend? (word :: words) = some last) (bound : Bindings) :
    ∃ outer, (∀ layer ∈ outer, Layer.bound layer = []) ∧
      scanWords level (.amid bound) (word :: words ++ rest) =
        .ok (layers ++ outer ++ [⟨level, bound⟩]) := by
  obtain ⟨next, branch, further⟩ := Option.bind_eq_some_iff.mp leads
  have above := Level.branch?_above branch
  induction words generalizing level next word bound with
  | nil =>
      obtain rfl := Option.some.inj further
      refine ⟨[], by simp, ?_⟩
      rw [List.singleton_append, scanWords_branch branch, inner]
      dsimp only
      rw [finish_above above below, List.append_nil]
  | cons second words ih =>
      obtain ⟨after, branchAfter, furtherAfter⟩ := Option.bind_eq_some_iff.mp further
      obtain ⟨outer, unbound, scanned⟩ :=
        ih second further [] after branchAfter furtherAfter (Level.branch?_above branchAfter)
      have scanned : scanWords next .start (second :: words ++ rest) =
          .ok (layers ++ outer ++ [⟨next, []⟩]) := scanned
      refine ⟨outer ++ [⟨next, []⟩], ?_, ?_⟩
      · intro layer member
        rcases List.mem_append.mp member with earlier | here
        · exact unbound layer earlier
        · rw [List.mem_singleton.mp here]
      · rw [List.cons_append, scanWords_branch branch, scanned]
        dsimp only
        rw [finish_above above (by simp), List.append_assoc layers]

end Descent

end RobotConsole.CommandLine
