import RobotConsole.Files.IndexFile
import RobotConsole.Proofs.Requests

/-!
# What an index touches

Opening an index, finding what it holds and keeping what a command has left there change nothing but
the file of the index and what lies beside it; all else that is new afterwards are folders.  What is
found comes from the file of the index, and what is kept is there afterwards.
-/

set_option autoImplicit false

namespace RobotConsole.Files

open Index (FileUse Locator)

/-! ## Places that a step leaves alone -/

namespace Tree

section Nodes

variable (tree : Tree) {place other : Place}

theorem node?_remove_ne (apart : other ≠ place) :
    (tree.remove place).node? other = tree.node? other := by
  have same : (tree.remove place).nodes.find? (fun entry => entry.1 == other) =
      tree.nodes.find? fun entry => entry.1 == other := by
    rw [remove, List.find?_filter]
    congr 1
    funext entry
    by_cases here : entry.1 = other
    · simp [here, apart]
    · simp [here]
  rw [node?, same]
  rfl

theorem node?_put_ne (node : Node) (apart : other ≠ place) :
    (tree.put place node).node? other = tree.node? other := by
  have passed : (place == other) = false := beq_eq_false_iff_ne.mpr apart.symm
  rw [← tree.node?_remove_ne apart]
  simp only [node?, put, List.find?_cons, passed]
  rfl

theorem node?_put_self (node : Node) (inside : ¬ (place = [] ∨ place = tree.working)) :
    (tree.put place node).node? place = some node := by
  have inside' : ¬ (place = [] ∨ place = (tree.put place node).working) := inside
  rw [node?, if_neg inside']
  simp [put]

theorem inside_of_file {node : Node} (found : tree.node? place = some node)
    (file : node ≠ .folder) :
    ¬ (place = [] ∨ place = tree.working) := by
  intro folder
  rw [node?, if_pos folder] at found
  exact file (Option.some.inj found).symm

theorem inside_of_none (missing : tree.node? place = none) :
    ¬ (place = [] ∨ place = tree.working) := by
  intro folder
  rw [node?, if_pos folder] at missing
  cases missing

end Nodes

/-- Away from some places all is as it was, except for new folders. -/
structure TouchesOnly (own : List Place) (before after : Tree) : Prop where
  working : after.working = before.working
  elsewhere : ∀ place ∉ own, after.node? place = before.node? place ∨
    before.node? place = none ∧ after.node? place = some .folder

namespace TouchesOnly

variable {own : List Place} {first second third tree : Tree} {place : Place}

theorem refl (tree : Tree) : TouchesOnly own tree tree where
  working := rfl
  elsewhere _ _ := Or.inl rfl

theorem trans (before : TouchesOnly own first second) (after : TouchesOnly own second third) :
    TouchesOnly own first third where
  working := after.working.trans before.working
  elsewhere place foreign := by
    rcases before.elsewhere place foreign with same | ⟨missing, folder⟩
    · rcases after.elsewhere place foreign with still | ⟨missing, folder⟩
      · exact Or.inl (still.trans same)
      · exact Or.inr ⟨same ▸ missing, folder⟩
    · rcases after.elsewhere place foreign with still | ⟨missing, -⟩
      · exact Or.inr ⟨missing, still.trans folder⟩
      · rw [folder] at missing
        cases missing

theorem remove (mine : place ∈ own) : TouchesOnly own tree (tree.remove place) where
  working := rfl
  elsewhere other foreign := by
    have apart : other ≠ place := fun same => foreign (same ▸ mine)
    exact Or.inl (tree.node?_remove_ne apart)

theorem put (node : Node) (mine : place ∈ own) : TouchesOnly own tree (tree.put place node) where
  working := rfl
  elsewhere other foreign := by
    have apart : other ≠ place := fun same => foreign (same ▸ mine)
    exact Or.inl (tree.node?_put_ne node apart)

theorem newFolder (missing : tree.node? place = none) :
    TouchesOnly own tree (tree.put place .folder) where
  working := rfl
  elsewhere other _ := by
    by_cases same : other = place
    · rw [same]
      exact Or.inr ⟨missing, tree.node?_put_self .folder (tree.inside_of_none missing)⟩
    · exact Or.inl (tree.node?_put_ne .folder same)

/-! ## Making folders -/

theorem makeFolder {steps : List Step} (made : tree.makeFolder place steps = .ok second) :
    TouchesOnly own tree second := by
  unfold Tree.makeFolder at made
  split at made
  · cases made
  · split at made
    · cases made
    · -- nothing is there yet
      rename_i missing
      cases made
      exact newFolder missing

theorem makeFolders (place : Place) (steps : List Step) (tree : Tree) :
    TouchesOnly own tree (Tree.makeFolders place steps tree).2 := by
  induction steps generalizing tree with
  | nil => exact refl tree
  | cons step above ih =>
      rw [Tree.makeFolders]
      split
      · rename_i made
        exact makeFolder made
      · -- a folder above is missing: those above are made, and then the folder itself
        have higher := ih tree
        split
        · rename_i failed
          rw [failed] at higher
          exact higher
        · rename_i done
          rw [done] at higher
          split
          · rename_i made
            exact higher.trans (makeFolder made)
          · split <;> exact higher
      · split <;> exact refl tree

theorem makeFolderOf (path : Bytes) : TouchesOnly own tree (tree.makeFolderOf path).2 := by
  unfold Tree.makeFolderOf Tree.makeFolderAt
  split
  · exact refl tree
  · exact makeFolders _ _ tree

end TouchesOnly

/-! ## The places of an index -/

/-- The place of a file, and of all that may lie beside it on account of an index. -/
def ownPlaces (place : Place) : List Place :=
  [place, journalOf place, logOf place, mapOf place]

def placeOf (tree : Tree) (path : Bytes) : Place :=
  followFrom (tree.base path) (steps path)

/-- The places that belong to an index. -/
def placesOf (tree : Tree) (locator : String) : List Place :=
  match Locator.read? locator with
  | some (.file use) => ownPlaces (tree.placeOf use.path)
  | _ => []

theorem trail?_eq_some {tree : Tree} {steps : List Step} {place found : Place}
    (taken : tree.trail? place steps = some found) : found = followFrom place steps := by
  induction steps generalizing place with
  | nil => exact (Option.some.inj taken).symm
  | cons step rest ih =>
      cases step with
      | stay => exact ih taken
      | up => exact ih taken
      | down name =>
          rw [trail?] at taken
          split at taken
          · exact ih taken
          · cases taken

theorem filePlace?_eq_some {tree : Tree} {use : FileUse} {place : Place}
    (found : tree.filePlace? use = some place) :
    place = tree.placeOf use.path := by
  obtain ⟨taken, -⟩ := Option.filter_eq_some_iff.mp found
  exact trail?_eq_some taken

end Tree

/-! ## Steps of a visit -/

namespace Visit

open RobotConsole.Files.Tree (TouchesOnly ownPlaces)

variable {First Last : Type} {own : List Place} {tree : Tree} {place : Place}

theorem get_run (tree : Tree) : (get : Visit Tree).run tree = (.ok tree, tree) := rfl

def Touches (own : List Place) (step : Visit First) : Prop :=
  ∀ tree, TouchesOnly own tree (step.run tree).2

namespace Touches

theorem pure (result : First) : Touches own (pure result : Visit First) := TouchesOnly.refl

theorem refuse : Touches own (refuse : Visit First) := TouchesOnly.refl

theorem get : Touches own (get : Visit Tree) := TouchesOnly.refl

theorem bind {step : Visit First} {next : First → Visit Last} (first : Touches own step)
    (rest : ∀ result, Touches own (next result)) : Touches own (step >>= next) := by
  intro tree
  have begun := first tree
  rw [bind_run]
  cases ran : step.run tree with
  | mk outcome middle =>
      rw [ran] at begun
      cases outcome with
      | error fault => exact begun
      | ok result => exact begun.trans (rest result middle)

theorem remove (mine : place ∈ own) : Touches own (remove place) := fun _ => TouchesOnly.remove mine

theorem found? (place : Place) : Touches own (found? place) :=
  bind get fun _ => pure _

theorem isBlankAt (place : Place) : Touches own (isBlankAt place) :=
  bind get fun _ => pure _

theorem tables? (place : Place) : Touches own (tables? place) := by
  apply bind get
  intro tree
  cases tree.node? place with
  | none => exact refuse
  | some node =>
      cases node with
      | index tables => exact pure _
      | folder | null | bytes =>
          dsimp only
          split
          · exact pure _
          · exact refuse

theorem settleLock (use : FileUse) (place : Place) : Touches own (settleLock use place) := by
  apply bind get
  intro tree
  dsimp only
  split
  · exact refuse
  · exact pure _

theorem settleJournal (use : FileUse) (place : Place) (mine : Tree.journalOf place ∈ own) :
    Touches own (settleJournal use place) := by
  apply bind (found? _)
  intro found
  cases found with
  | none => exact pure _
  | some node =>
      apply bind (isBlankAt place)
      intro blank
      split
      · split
        · exact remove mine
        · exact pure _
      · split
        · exact refuse
        · split
          · exact pure _
          · split
            · exact remove mine
            · exact refuse

theorem settleMap (use : FileUse) (place : Place) (log : Node) (mine : Tree.logOf place ∈ own)
    (mapMine : Tree.mapOf place ∈ own) : Touches own (settleMap use place log) := by
  apply bind get
  intro tree
  split
  · exact refuse
  · split
    · exact pure _
    · exact refuse
  · split
    · exact pure _
    · exact refuse
  · split
    · exact bind (remove mine) fun _ => bind (remove mapMine) fun _ => pure _
    · exact bind (fun _ => TouchesOnly.put _ mapMine) fun _ => pure _

theorem settleLog (use : FileUse) (place : Place) (mine : Tree.logOf place ∈ own)
    (mapMine : Tree.mapOf place ∈ own) :
    Touches own (settleLog use place) := by
  apply bind (found? _)
  intro found
  cases found with
  | none => exact pure _
  | some log =>
      dsimp only
      split
      · exact refuse
      · apply bind (isBlankAt place)
        intro blank
        split
        · exact bind (remove mine) fun _ => pure _
        · split
          · exact refuse
          · exact refuse
          · exact settleMap use place log mine mapMine
          · split
            · exact bind (remove mine) fun _ => pure _
            · exact settleMap use place log mine mapMine

theorem settle (use : FileUse) (place : Place) : Touches (ownPlaces place) (settle use place) := by
  have journal : Tree.journalOf place ∈ ownPlaces place := by simp [ownPlaces]
  have log : Tree.logOf place ∈ ownPlaces place := by simp [ownPlaces]
  have map : Tree.mapOf place ∈ ownPlaces place := by simp [ownPlaces]
  unfold Visit.settle
  split
  · exact pure _
  · exact bind (settleLock use place) fun _ => bind (settleJournal use place journal) fun _ =>
      settleLog use place log map

theorem makeTables (footing : Footing) (place : Place) :
    Touches (ownPlaces place) (makeTables footing place) := by
  have journal : Tree.journalOf place ∈ ownPlaces place := by simp [ownPlaces]
  have mine : place ∈ ownPlaces place := by simp [ownPlaces]
  intro tree
  simp only [Visit.makeTables, bind_run, get_run]
  split
  · exact (TouchesOnly.remove journal).trans (TouchesOnly.put _ mine)
  · exact TouchesOnly.refl tree

theorem makeFolder (locator : String) : Touches own (makeFolder locator) := by
  intro tree
  have made : TouchesOnly own tree (tree.makeFolderOf (bytesOf locator)).2 :=
    TouchesOnly.makeFolderOf (bytesOf locator)
  simp only [Visit.makeFolder, ExceptT.run]
  split
  · rename_i ran
    rw [ran] at made
    exact made
  · rename_i ran
    rw [ran] at made
    exact made

end Touches

/-- The file of an index is reached at the place that its path leads to. -/
theorem reach_touches (use : FileUse) (tree : Tree) :
    TouchesOnly (ownPlaces (tree.placeOf use.path)) tree ((reach use).run tree).2 ∧
      ∀ place, ((reach use).run tree).1 = .ok place → place = tree.placeOf use.path := by
  simp only [reach, bind_run, get_run]
  cases led : tree.filePlace? use with
  | none => exact ⟨TouchesOnly.refl tree, fun place done => by cases done⟩
  | some place =>
      obtain rfl := Tree.filePlace?_eq_some led
      have mine : tree.placeOf use.path ∈ ownPlaces (tree.placeOf use.path) := by simp [ownPlaces]
      dsimp only
      split
      · exact ⟨TouchesOnly.refl tree, fun place done => by cases done⟩
      · split
        · exact ⟨TouchesOnly.refl tree, fun place done => by cases done⟩
        · exact ⟨TouchesOnly.refl tree, fun place done => by cases done⟩
        · exact ⟨TouchesOnly.refl tree, fun place done => (Except.ok.inj done).symm⟩
        · split
          · exact ⟨TouchesOnly.put _ mine, fun place done => (Except.ok.inj done).symm⟩
          · exact ⟨TouchesOnly.refl tree, fun place done => by cases done⟩

theorem touches_after_reach {use : FileUse} {next : Place → Visit Last}
    (rest : ∀ place, Touches (ownPlaces place) (next place)) (tree : Tree) :
    TouchesOnly (ownPlaces (tree.placeOf use.path)) tree ((reach use >>= next).run tree).2 := by
  obtain ⟨reached, led⟩ := reach_touches use tree
  rw [bind_run]
  cases ran : (reach use).run tree with
  | mk outcome middle =>
      rw [ran] at reached led
      cases outcome with
      | error fault => exact reached
      | ok place =>
          obtain rfl := led place rfl
          exact reached.trans (rest _ middle)

theorem hold_touches (use : FileUse) (tree : Tree) :
    TouchesOnly (ownPlaces (tree.placeOf use.path)) tree ((hold use).run tree).2 := by
  apply touches_after_reach
  intro place
  apply Touches.bind (Touches.settle use place)
  intro footing
  apply Touches.bind (Touches.tables? place)
  intro found
  cases found with
  | none => exact Touches.refuse
  | some tables => exact Touches.pure _

theorem tables?_run {place : Place} {tree after : Tree} {tables : Index.Tables}
    (ran : (tables? place).run tree = (.ok (some tables), after)) :
    after = tree ∧ tree.node? place = some (.index tables) := by
  simp only [tables?, bind_run, get_run] at ran
  cases found : tree.node? place with
  | none =>
      rw [found] at ran
      cases ran
  | some node =>
      rw [found] at ran
      cases node with
      | index held =>
          cases ran
          exact ⟨rfl, rfl⟩
      | folder | null | bytes =>
          dsimp only at ran
          split at ran <;> cases ran

/-- What is held are the tables in the file of the index. -/
theorem hold_eq_ok {use : FileUse} {tree after : Tree} {holding : Holding}
    (ran : (hold use).run tree = (.ok holding, after)) :
    holding.place = some (tree.placeOf use.path) ∧
      ∃ tables, after.node? (tree.placeOf use.path) = some (.index tables) ∧
        (holding.store = .sound tables ∨ holding.store = .sealed tables) := by
  obtain ⟨-, led⟩ := reach_touches use tree
  simp only [hold, bind_run] at ran
  cases reached : (reach use).run tree with
  | mk outcome first =>
      rw [reached] at ran led
      cases outcome with
      | error fault => cases ran
      | ok place =>
          obtain rfl := led place rfl
          dsimp only at ran
          cases settled : (settle use (tree.placeOf use.path)).run first with
          | mk outcome second =>
              rw [settled] at ran
              cases outcome with
              | error fault => cases ran
              | ok footing =>
                  dsimp only at ran
                  cases read : (tables? (tree.placeOf use.path)).run second with
                  | mk outcome third =>
                      rw [read] at ran
                      cases outcome with
                      | error fault => cases ran
                      | ok found =>
                          cases found with
                          | none => cases ran
                          | some tables =>
                              obtain ⟨rfl, held⟩ := tables?_run read
                              cases ran
                              refine ⟨rfl, tables, held, ?_⟩
                              dsimp only
                              split
                              · exact Or.inl rfl
                              · exact Or.inr rfl

end Visit

/-! ## Opening, finding and keeping -/

namespace Tree

variable {before tree : Tree} {locator : String}

theorem placesOf_congr (same : tree.working = before.working) :
    tree.placesOf locator = before.placesOf locator := by
  simp only [placesOf, placeOf, base, same]

theorem openIndex_touches (tree : Tree) (locator : String) :
    TouchesOnly (tree.placesOf locator) tree (tree.openIndex locator).2 := by
  have made : TouchesOnly (tree.placesOf locator) tree ((Visit.makeFolder locator).run tree).2 :=
    Visit.Touches.makeFolder locator tree
  simp only [openIndex, Visit.openIndex, bind_run]
  cases ran : (Visit.makeFolder locator).run tree with
  | mk outcome middle =>
      rw [ran] at made
      cases outcome with
      | error fault => exact made
      | ok _ =>
          apply made.trans
          have same : middle.placesOf locator = tree.placesOf locator := placesOf_congr made.working
          rw [← same]
          simp only [placesOf]
          cases Locator.read? locator with
          | none => exact TouchesOnly.refl middle
          | some read =>
              cases read with
              | passing mayChange => cases mayChange <;> exact TouchesOnly.refl middle
              | file use =>
                  apply Visit.touches_after_reach
                  intro place
                  apply Visit.Touches.bind (Visit.Touches.settle use place)
                  intro footing
                  apply Visit.Touches.bind (Visit.Touches.tables? place)
                  intro found
                  cases found with
                  | none => exact Visit.Touches.makeTables footing place
                  | some tables => exact Visit.Touches.pure _

theorem hold_touches (tree : Tree) (locator : String) :
    TouchesOnly (tree.placesOf locator) tree (tree.hold locator).2 := by
  simp only [hold, placesOf]
  cases Locator.read? locator with
  | none => exact TouchesOnly.refl tree
  | some read =>
      cases read with
      | passing mayChange => exact TouchesOnly.refl tree
      | file use =>
          have held := Visit.hold_touches use tree
          dsimp only
          cases ran : (Visit.hold use).run tree with
          | mk outcome after =>
              rw [ran] at held
              cases outcome <;> exact held

/-- If a store can be read, it holds the tables in the file of the index. -/
theorem hold_cases (tree : Tree) (locator : String) :
    (tree.hold locator).1 = ⟨.damaged, none, false⟩ ∨
      ∃ place tables, tree.placesOf locator = ownPlaces place ∧
        (tree.hold locator).1.place = some place ∧
        (tree.hold locator).2.node? place = some (.index tables) ∧
        ((tree.hold locator).1.store = .sound tables ∨
          (tree.hold locator).1.store = .sealed tables) := by
  simp only [hold, placesOf]
  cases Locator.read? locator with
  | none => exact Or.inl rfl
  | some read =>
      cases read with
      | passing mayChange => exact Or.inl rfl
      | file use =>
          dsimp only
          cases ran : (Visit.hold use).run tree with
          | mk outcome after =>
              cases outcome with
              | error fault => exact Or.inl rfl
              | ok holding =>
                  obtain ⟨placed, tables, found, store⟩ := Visit.hold_eq_ok ran
                  exact Or.inr ⟨_, tables, rfl, placed, found, store⟩

theorem keep_touches {holding : Holding} {place : Place} (placed : holding.place = some place)
    (store : Index.Store)
    (tree : Tree) : TouchesOnly (ownPlaces place) tree (tree.keep holding store) := by
  have mine : place ∈ ownPlaces place := by simp [ownPlaces]
  have journal : journalOf place ∈ ownPlaces place := by simp [ownPlaces]
  cases store with
  | «sealed» tables => exact TouchesOnly.refl tree
  | damaged => exact TouchesOnly.refl tree
  | sound tables =>
      simp only [keep, placed]
      split
      · exact TouchesOnly.refl tree
      · split
        · exact TouchesOnly.put _ mine
        · exact (TouchesOnly.remove journal).trans (TouchesOnly.put _ mine)

/-- A store that can be changed leaves its tables in the file that they were found in. -/
theorem keep_sound {holding : Holding} {place : Place} {tables kept : Index.Tables}
    (placed : holding.place = some place) (found : tree.node? place = some (.index tables)) :
    (tree.keep holding (.sound kept)).node? place = some (.index kept) := by
  have inside := tree.inside_of_file found (by simp)
  simp only [keep, placed]
  split
  · assumption
  · split <;> exact node?_put_self _ _ inside

theorem keep_unchanged {holding : Holding} {place : Place} {tables : Index.Tables}
    (placed : holding.place = some place)
    (found : tree.node? place = some (.index tables)) :
    tree.keep holding (.sound tables) = tree := by
  simp only [keep, placed, found, if_true]

end Tree

end RobotConsole.Files
