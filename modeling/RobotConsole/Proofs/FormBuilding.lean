import Mathlib.Data.List.Induction
import RobotConsole.Form

/-!
# Forms that are built step by step

A form is built by binding keys to values, one value or several at a time, in any order.  It then
holds every key once, in the order in which the keys came, and under each key all the values that
were bound to it, in the order in which they came.  No value is lost or doubled, and what is bound
to one key does not touch another.
-/

set_option autoImplicit false

namespace RobotConsole.Form

/-! ## Steps -/

inductive Step where
  | one (key value : String)
  | all (key : String) (values : List String)
  deriving DecidableEq, Repr

namespace Step

def key : Step → String
  | .one key _ => key
  | .all key _ => key

def values : Step → List String
  | .one _ value => [value]
  | .all _ values => values

def pairs (step : Step) : List (String × String) :=
  step.values.map fun value => (step.key, value)

end Step

def take (form : Form) : Step → Form
  | .one key value => form.bind key value
  | .all key values => form.bindAll key values

def build (steps : List Step) : Form :=
  steps.foldl take empty

def boundTo (key : String) (steps : List Step) : List String :=
  (steps.filter fun step => step.key == key).flatMap Step.values

/-- What a form holds under a key. -/
def valuesOf (form : Form) (key : String) : List String :=
  (form.pairs.filter fun pair => pair.1 == key).map Prod.snd

/-- The keys of the steps in the order of their first steps. -/
def keysOf (steps : List Step) : List String :=
  (steps.map Step.key).eraseDups

theorem take_eq (form : Form) (step : Step) :
    form.take step = form.bindAll step.key step.values := by
  cases step <;> rfl

theorem build_concat (steps : List Step) (step : Step) :
    build (steps ++ [step]) = (build steps).bindAll step.key step.values := by
  rw [build, List.foldl_append, ← take_eq]
  rfl

theorem boundTo_concat (key : String) (steps : List Step) (step : Step) :
    boundTo key (steps ++ [step]) = boundTo key steps ++ if step.key = key then step.values
      else [] := by
  by_cases own : step.key = key <;> simp [boundTo, List.filter_append, own]

theorem boundTo_append (key : String) (steps more : List Step) :
    boundTo key (steps ++ more) = boundTo key steps ++ boundTo key more := by
  simp [boundTo, List.filter_append]

theorem boundTo_eq_nil {key : String} {steps : List Step}
    (nothing : ∀ step ∈ steps, step.key = key → step.values = []) : boundTo key steps = [] := by
  rw [boundTo, List.flatMap_eq_nil_iff]
  intro step member
  obtain ⟨among, own⟩ := List.mem_filter.mp member
  exact nothing step among (beq_iff_eq.mp own)

theorem mem_keysOf (key : String) (steps : List Step) :
    key ∈ keysOf steps ↔ ∃ step ∈ steps, step.key = key := by
  simp [keysOf, List.mem_eraseDups]

theorem boundTo_of_not_mem {key : String} {steps : List Step} (unknown : key ∉ keysOf steps) :
    boundTo key steps = [] := by
  apply boundTo_eq_nil
  intro step member own
  exact absurd ((mem_keysOf key steps).mpr ⟨step, member, own⟩) unknown

theorem eraseDups_concat (keys : List String) (key : String) :
    (keys ++ [key]).eraseDups = if key ∈ keys then keys.eraseDups else keys.eraseDups ++ [key] := by
  rw [List.eraseDups_append]
  by_cases known : key ∈ keys <;> simp [List.removeAll, known, List.eraseDups_cons]

theorem keysOf_concat (steps : List Step) (step : Step) :
    keysOf (steps ++ [step]) = if step.key ∈ keysOf steps then keysOf steps
      else keysOf steps ++ [step.key] := by
  simp only [keysOf, List.map_append, List.map_singleton, eraseDups_concat, List.mem_eraseDups]

theorem nodup_keysOf (steps : List Step) : (keysOf steps).Nodup := by
  induction steps using List.reverseRecOn with
  | nil => exact List.nodup_nil
  | append_singleton steps step ih =>
      rw [keysOf_concat]
      by_cases known : step.key ∈ keysOf steps
      · rw [if_pos known]
        exact ih
      · have apart : ∀ key ∈ keysOf steps, ¬ key = step.key := by
          rintro key among rfl
          exact known among
        rw [if_neg known]
        simpa [List.nodup_append, ih] using apart

/-! ## What is held -/

theorem bindIn_of_known (key : String) (values : List String) (held : String → List String)
    (keys : List String) (distinct : keys.Nodup) (known : key ∈ keys) :
    bindIn key values (keys.map fun other => (other, held other)) =
      keys.map fun other => (other, held other ++ if key = other then values else []) := by
  induction keys with
  | nil => cases known
  | cons first rest ih =>
      obtain ⟨apart, distinct⟩ := List.nodup_cons.mp distinct
      by_cases same : first = key
      · have others : ∀ other ∈ rest,
            (other, held other) = (other, held other ++ if key = other then values else []) := by
          intro other member
          have differs : key ≠ other := by
            rintro rfl
            exact apart (same ▸ member)
          simp [differs]
        rw [List.map_cons, List.map_cons, bindIn, if_pos same, if_pos same.symm,
          List.map_congr_left others]
      · have later : key ∈ rest := (List.mem_cons.mp known).resolve_left (Ne.symm same)
        rw [List.map_cons, List.map_cons, bindIn, if_neg same, if_neg (Ne.symm same),
          List.append_nil, ih distinct later]

theorem bindIn_of_new (key : String) (values : List String) (bindings : List (String × List String))
    (new : key ∉ bindings.map Prod.fst) :
    bindIn key values bindings = bindings ++ [(key, values)] := by
  induction bindings with
  | nil => rfl
  | cons first rest ih =>
      obtain ⟨held, before⟩ := first
      simp only [List.map_cons, List.mem_cons, not_or] at new
      rw [bindIn, if_neg (Ne.symm new.1), ih new.2, List.cons_append]

/-- A form that has been built holds under every key what the steps have bound to it. -/
theorem bindings_build (steps : List Step) :
    (build steps).bindings = (keysOf steps).map fun key => (key, boundTo key steps) := by
  induction steps using List.reverseRecOn with
  | nil => rfl
  | append_singleton steps step ih =>
      have values : ∀ key, boundTo key (steps ++ [step]) =
          boundTo key steps ++ if step.key = key then step.values else [] :=
            fun key => boundTo_concat key steps step
      rw [build_concat, bindAll, ih, keysOf_concat]
      by_cases known : step.key ∈ keysOf steps
      · rw [if_pos known, bindIn_of_known _ _ _ _ (nodup_keysOf steps) known]
        simp only [values]
      · have others : ∀ key ∈ keysOf steps,
            (key, boundTo key steps) = (key, boundTo key (steps ++ [step])) := by
          intro key among
          have differs : step.key ≠ key := by
            rintro rfl
            exact known among
          simp [values, differs]
        rw [if_neg known, bindIn_of_new _ _ _ (by simpa using known), List.map_append,
          List.map_congr_left others,
          List.map_singleton, values, boundTo_of_not_mem known, if_pos rfl, List.nil_append]

theorem keys_build (steps : List Step) : (build steps).keys = keysOf steps := by
  simp [keys, bindings_build, Function.comp_def]

theorem pairs_build (steps : List Step) :
    (build steps).pairs = (keysOf steps).flatMap fun key => (boundTo key steps).map fun value =>
      (key, value) := by
  rw [pairs, bindings_build, List.flatMap_map]

/-! ## What is read -/

theorem values_of_pairs (held : String → List String) (keys : List String) (distinct : keys.Nodup)
    (key : String) :
    ((keys.flatMap fun other => (held other).map fun value => (other, value)).filter fun pair =>
      pair.1 == key).map
        Prod.snd =
      if key ∈ keys then held key else [] := by
  induction keys with
  | nil => rfl
  | cons first rest ih =>
      obtain ⟨apart, distinct⟩ := List.nodup_cons.mp distinct
      have later := ih distinct
      rw [List.flatMap_cons, List.filter_append, List.map_append, later]
      by_cases same : first = key
      · have gone : key ∉ rest := same ▸ apart
        simp [same, gone, List.filter_map, Function.comp_def]
      · have own : key ∈ first :: rest ↔ key ∈ rest := by simp [Ne.symm same]
        simp [same, own, List.filter_map, Function.comp_def]

theorem valuesOf_build (steps : List Step) (key : String) :
    (build steps).valuesOf key = boundTo key steps := by
  rw [valuesOf, pairs_build, values_of_pairs _ _ (nodup_keysOf steps)]
  by_cases known : key ∈ keysOf steps
  · rw [if_pos known]
  · rw [if_neg known, boundTo_of_not_mem known]

theorem pairs_bindAll_perm (form : Form) (key : String) (values : List String) :
    (form.bindAll key values).pairs.Perm (form.pairs ++ values.map fun value => (key, value)) := by
  obtain ⟨bindings⟩ := form
  simp only [pairs, bindAll]
  induction bindings with
  | nil => simp [bindIn]
  | cons first rest ih =>
      obtain ⟨held, before⟩ := first
      by_cases same : held = key
      · subst same
        simp only [bindIn, if_true, List.flatMap_cons, List.map_append, List.append_assoc]
        exact List.Perm.append_left _ List.perm_append_comm
      · simp only [bindIn, if_neg same, List.flatMap_cons, List.append_assoc]
        exact List.Perm.append_left _ ih

theorem pairs_build_perm (steps : List Step) :
    (build steps).pairs.Perm (steps.flatMap Step.pairs) := by
  induction steps using List.reverseRecOn with
  | nil => exact List.Perm.refl _
  | append_singleton steps step ih =>
      rw [build_concat, List.flatMap_append, List.flatMap_singleton]
      exact (pairs_bindAll_perm (build steps) step.key step.values).trans (ih.append_right _)

/-- A form that has been built holds each key once and in the order of the first steps, and its
pairs are, key by key, all that was bound to the key in the order of the steps: the pairs of the
steps, none of them lost or doubled.  A key that was only bound to nothing has no pair, and steps on
two keys can change places without a change to the values of either. -/
theorem build_holds_what_was_bound (steps : List Step) :
    (build steps).keys.Nodup ∧ (build steps).keys = (steps.map Step.key).eraseDups ∧
    ((build steps).pairs =
      (build steps).keys.flatMap fun key => (boundTo key steps).map fun value => (key, value)) ∧
    (build steps).pairs.Perm (steps.flatMap Step.pairs) ∧
    (∀ key, (∀ step ∈ steps, step.key = key → step.values = []) → ∀ pair ∈ (build steps).pairs,
      pair.1 ≠ key) ∧
    ∀ before first second after, steps = before ++ first :: second :: after →
      first.key ≠ second.key →
      ∀ key, (build (before ++ second :: first :: after)).valuesOf key =
        (build steps).valuesOf key := by
  refine ⟨?_, keys_build steps, ?_, pairs_build_perm steps, ?_, ?_⟩
  · rw [keys_build]
    exact nodup_keysOf steps
  · rw [keys_build]
    exact pairs_build steps
  · intro key nothing pair member own
    have found : pair.2 ∈ (build steps).valuesOf key :=
      List.mem_map_of_mem (List.mem_filter.mpr ⟨member, beq_iff_eq.mpr own⟩)
    rw [valuesOf_build, boundTo_eq_nil nothing] at found
    cases found
  · rintro before first second after rfl apart key
    have swapped : boundTo key [second, first] = boundTo key [first, second] := by
      by_cases firstOwn : first.key = key
      · have secondOther : second.key ≠ key := fun own => apart (firstOwn.trans own.symm)
        simp [boundTo, firstOwn, secondOther]
      · by_cases secondOwn : second.key = key <;> simp [boundTo, firstOwn, secondOwn]
    have split : ∀ one two : Step,
        before ++ one :: two :: after = before ++ ([one, two] ++ after) := by
      intro one two
      rfl
    rw [valuesOf_build, valuesOf_build, split, split, boundTo_append, boundTo_append, swapped,
      ← boundTo_append, ← boundTo_append]

/-! A key that is bound to nothing at first, keeps its place, and gets its values later. -/

def mixed : List Step :=
  [.all "input" [], .one "period" "2d", .all "input" ["a", "b"], .all "empty" [], .one "input" "a"]

theorem build_holds_what_was_bound_mixed :
    (build mixed).keys = ["input", "period", "empty"] ∧
    (build mixed).pairs = [("input", "a"), ("input", "b"), ("input", "a"), ("period", "2d")] ∧
    (∀ pair ∈ (build mixed).pairs, pair.1 ≠ "empty") ∧
    (build [.all "input" [], .all "input" ["a", "b"], .one "period" "2d", .all "empty" [],
      .one "input" "a"]).valuesOf
        "input" =
      (build mixed).valuesOf "input" := by
  obtain ⟨-, keys, pairs, -, nothing, swap⟩ := build_holds_what_was_bound mixed
  refine ⟨keys, by rw [pairs, keys]; decide +kernel, nothing "empty" (by decide), ?_⟩
  exact swap [.all "input" []] (.one "period" "2d") (.all "input" ["a", "b"])
    [.all "empty" [], .one "input" "a"] rfl (by decide) "input"

end RobotConsole.Form
