import RobotConsole.Proofs.Requests

/-!
# Joining addresses

Joining takes the slashes off the end of the base and off the head of the relative part, and puts
one slash between the two.  So it does not matter how many slashes there were, nor which of several
parts are joined first.  A part in the middle that has nothing but slashes vanishes, whichever side
it is joined to.  A resource and all that is asked for under it are therefore the same however many
slashes end the address that the resource was made from.
-/

set_option autoImplicit false

namespace RobotConsole

namespace Address

def slashes (count : Nat) : String :=
  String.ofList (List.replicate count '/')

theorem isSlash_of_mem_replicate {count : Nat} {c : Char} (member : c ∈ List.replicate count '/') :
    isSlash c = true := by
  rw [List.eq_of_mem_replicate member]
  rfl

theorem stem_slashes (url : String) (count : Nat) : stem (url ++ slashes count) = stem url := by
  rw [stem, slashes, String.toList_append, String.toList_ofList, stemChars,
    Text.dropEndWhile_append_of_all isSlash _ _ fun c => isSlash_of_mem_replicate]
  rfl

theorem join_slashes_left (base relative : String) (count : Nat) :
    join (base ++ slashes count) relative = join base relative := by
  rw [← join_stem, stem_slashes, join_stem]

theorem join_slashes_right (base relative : String) (count : Nat) :
    join base (slashes count ++ relative) = join base relative := by
  rw [join, slashes, String.toList_append, String.toList_ofList, joinChars,
    List.dropWhile_append_of_pos fun c => isSlash_of_mem_replicate]
  rfl

/-- A middle part of nothing but slashes leaves one slash between its neighbours. -/
theorem joinChars_assoc_of_bare {middle : List Char} (bare : ∀ c ∈ middle, isSlash c = true)
    (first last : List Char) :
    joinChars (joinChars first middle) last = joinChars first (joinChars middle last) := by
  have noHead : middle.dropWhile isSlash = [] := List.dropWhile_eq_nil_iff.mpr bare
  have noStem : stemChars middle = [] := (Text.dropEndWhile_eq_nil_iff isSlash middle).mpr bare
  have left : stemChars (stemChars first ++ ['/']) = stemChars first := by
    rw [stemChars, Text.dropEndWhile_append_of_all isSlash _ ['/'] (by simp [isSlash])]
    exact stemChars_stemChars first
  have right : ('/' :: last.dropWhile isSlash).dropWhile isSlash = last.dropWhile isSlash := by
    have slash : isSlash '/' = true := rfl
    rw [List.dropWhile_cons, if_pos slash, List.dropWhile_idempotent]
  simp only [joinChars, noHead, noStem, left, List.nil_append, right]

/-- Of any other middle part the same is left between its neighbours, whichever slashes are taken
off first. -/
theorem joinChars_assoc_of_not_bare {middle : List Char} (solid : ¬ ∀ c ∈ middle, isSlash c = true)
    (first last : List Char) :
    joinChars (joinChars first middle) last = joinChars first (joinChars middle last) := by
  have commute : (stemChars middle).dropWhile isSlash = stemChars (middle.dropWhile isSlash) :=
    Text.dropWhile_dropEndWhile isSlash middle
  have left : stemChars (middle.dropWhile isSlash) ≠ [] := by
    intro nothing
    exact solid (List.dropWhile_eq_nil_iff.mp (Text.dropEndWhile_dropWhile_eq_nil isSlash nothing))
  have fromLeft : stemChars (stemChars first ++ '/' :: middle.dropWhile isSlash) =
      stemChars first ++ '/' :: stemChars (middle.dropWhile isSlash) := by
    have behind := Text.dropEndWhile_append_of_ne_nil isSlash (stemChars first ++ ['/']) left
    rw [List.append_assoc, List.append_assoc] at behind
    exact behind
  have fromRight : (stemChars middle ++ '/' :: last.dropWhile isSlash).dropWhile isSlash =
      stemChars (middle.dropWhile isSlash) ++ '/' :: last.dropWhile isSlash := by
    rw [Text.dropWhile_append_of_ne_nil isSlash (commute ▸ left), commute]
  simp only [joinChars, fromLeft, fromRight, List.append_assoc, List.cons_append]

theorem join_assoc (first middle last : String) :
    join (join first middle) last = join first (join middle last) := by
  have chars : joinChars (joinChars first.toList middle.toList) last.toList =
      joinChars first.toList (joinChars middle.toList last.toList) := by
    by_cases bare : ∀ c ∈ middle.toList, isSlash c = true
    · exact joinChars_assoc_of_bare bare _ _
    · exact joinChars_assoc_of_not_bare bare _ _
  simp only [join, String.toList_ofList, chars]

end Address

/-- Whatever has passed before, the step sends one request more, which posts the payload to the
address. -/
def Talk.Posts {Result : Type} (step : Talk Result) (url : String) (payload : Payload) : Prop :=
  ∀ exchange, (step.run exchange).2.sent = exchange.sent ++ [Talk.postRequest url payload]

namespace Resource

variable {kind : Kind}

theorem ofUrl_slashes (url : String) (count : Nat) :
    (ofUrl (url ++ Address.slashes count) : Resource kind) = ofUrl url := by
  rw [ofUrl, Address.stem_slashes, ofUrl]

theorem posts_create (created : Kind) (url relative : String) (payload : Payload) :
    ((ofUrl url : Resource kind).create created relative payload).Posts
      (Address.join url relative) payload := by
  intro exchange
  rw [create_run, Exchange.sent_after, path_ofUrl]

end Resource

namespace Address

/-- Several parts may be joined in any order, and slashes at the end of a base or at the head of a
relative part do not count.  What lies under a resource is joined to the address that the resource
was made from, and so the posts of all creating operations go to the same addresses however many
slashes end that address. -/
theorem joining_ignores_slashes :
    (∀ first middle last, join (join first middle) last = join first (join middle last)) ∧
    (∀ base relative count, join (base ++ slashes count) relative = join base relative ∧
      join base (slashes count ++ relative) = join base relative) ∧
    (∀ (kind : Kind) (url relative : String),
      (Resource.ofUrl url : Resource kind).path relative = join url relative) ∧
    ∀ url count,
      (∀ definition, (Service.createRobot (.ofUrl (url ++ slashes count)) definition).Posts
        (join url "robot/create") definition.payload) ∧
      (∀ text inputs, (Service.executeOnce (.ofUrl (url ++ slashes count)) text inputs).Posts
        (join url "robot/execute") (.form (Service.onceForm text inputs))) ∧
      (∀ inputs, (Service.execute (.ofUrl (url ++ slashes count)) inputs).Posts
        (join url "execute") (.form (Service.executionForm inputs))) ∧
      ∀ period inputs, (Service.schedule (.ofUrl (url ++ slashes count)) period inputs).Posts
        (join url "periodical") (.form (Service.periodicalForm period inputs)) := by
  refine ⟨join_assoc, ?_, ?_, ?_⟩
  · intro base relative count
    exact ⟨join_slashes_left base relative count, join_slashes_right base relative count⟩
  · intro kind url relative
    exact Resource.path_ofUrl url relative
  · intro url count
    simp only [Resource.ofUrl_slashes]
    exact ⟨fun _ => Resource.posts_create .robot url _ _,
      fun _ _ => Resource.posts_create .execution url _ _,
      fun _ => Resource.posts_create .execution url _ _,
      fun _ _ => Resource.posts_create .periodical url _ _⟩

/-! Slashes on both sides, and a middle part that has nothing else. -/

example : join (join "http://x//" "///") "/robot/create" = "http://x/robot/create" := by
  decide +kernel

end Address

end RobotConsole
