import RobotConsole.Proofs.FirstCode
import RobotConsole.Proofs.Requests

/-!
# The code under an address

A code needs as many characters as any other, so whatever is written behind an address that has one
comes too late for a code further left.  All that lies under an address therefore carries the code
of the address.
-/

set_option autoImplicit false

namespace RobotConsole

namespace Code

theorem CodeAt.append {url code : List Char} {place : Nat} (found : CodeAt url place code)
    (more : List Char) :
    CodeAt (url ++ more) place code := by
  obtain ⟨formed, before, after, start, rfl⟩ := found
  exact ⟨formed, before, after ++ more, start, by simp⟩

/-- A code that ends within the url does not depend on what is written behind it. -/
theorem CodeAt.of_append {url more code : List Char} {place : Nat}
    (found : CodeAt (url ++ more) place code)
    (within : place + 1 + shape.length ≤ url.length) : CodeAt url place code := by
  obtain ⟨formed, before, after, start, split⟩ := found
  have whole : before ++ '/' :: code <+: url ++ more := ⟨after, by simp [split]⟩
  have length : (before ++ '/' :: code).length ≤ url.length := by
    rw [List.length_append, List.length_cons, start, formed.length]
    omega
  obtain ⟨rest, cut⟩ := List.prefix_of_prefix_length_le whole (List.prefix_append url more) length
  exact ⟨formed, before, rest, start, by simp [← cut]⟩

theorem CodeAt.within {url code : List Char} {place : Nat} (found : CodeAt url place code) :
    place + 1 + shape.length ≤ url.length := by
  obtain ⟨formed, before, after, start, rfl⟩ := found
  have length := formed.length
  simp only [List.length_append, List.length_cons]
  omega

theorem IsFirst.append {url code : List Char} (first : IsFirst url code) (more : List Char) :
    IsFirst (url ++ more) code := by
  obtain ⟨place, found, left⟩ := first
  refine ⟨place, found.append more, ?_⟩
  intro earlier below other again
  have end_within := found.within
  exact left earlier below other (again.of_append (by omega))

end Code

namespace Index

theorem codeOf_append {url code : String} (found : codeOf url = .ok code) (more : String) :
    codeOf (url ++ more) = .ok code := by
  rw [codeOf_eq_ok_iff] at found ⊢
  rw [String.toList_append]
  exact found.append more.toList

theorem codeOf_stem_eq_ok_iff (url code : String) :
    codeOf (Address.stem url) = .ok code ↔ codeOf url = .ok code := by
  unfold codeOf
  rw [Code.find?_stem]
  cases Code.find? url <;> simp

theorem codeOf_join {base code : String} (found : codeOf base = .ok code) (relative : String) :
    codeOf (Address.join base relative) = .ok code := by
  have under : Address.join base relative =
      Address.stem base ++ String.ofList ('/' :: relative.toList.dropWhile Address.isSlash) := by
    apply String.toList_inj.mp
    simp [Address.join, Address.joinChars]
  rw [under]
  exact codeOf_append ((codeOf_stem_eq_ok_iff base code).mpr found) _

/-- A code is found in an address whatever is written behind it, in the address without the slashes
at its end if and only if it is found in the address, and in all addresses of what lies under a
resource of that address. -/
theorem code_in_every_form (url : String) :
    (∀ code more, codeOf url = .ok code → codeOf (url ++ more) = .ok code) ∧
    (∀ code, codeOf (Address.stem url) = .ok code ↔ codeOf url = .ok code) ∧
    ∀ (kind : Kind) (code relative : String), codeOf url = .ok code →
      codeOf ((Resource.ofUrl url : Resource kind).path relative) = .ok code := by
  refine ⟨?_, codeOf_stem_eq_ok_iff url, ?_⟩
  · intro code more found
    exact codeOf_append found more
  · intro kind code relative found
    rw [Resource.path_ofUrl]
    exact codeOf_join found relative

/-! An address with slashes at its end, and other codes behind it. -/

def slashedUrl : String := "http://x/robot/11111111-1111-1111-1111-111111111111//"

theorem code_in_every_form_slashed :
    codeOf (slashedUrl ++ "22222222-2222-2222-2222-222222222222") =
      .ok "11111111-1111-1111-1111-111111111111" ∧
    codeOf (Address.stem slashedUrl) = .ok "11111111-1111-1111-1111-111111111111" ∧
    codeOf ((Resource.ofUrl slashedUrl : Resource .execution).path
      "//33333333-3333-3333-3333-333333333333") =
      .ok "11111111-1111-1111-1111-111111111111" := by
  obtain ⟨behind, stem, under⟩ := code_in_every_form slashedUrl
  have found : codeOf slashedUrl = .ok "11111111-1111-1111-1111-111111111111" := by
    decide +kernel
  exact ⟨behind _ _ found, (stem _).mpr found, under .execution _ _ found⟩

end Index

end RobotConsole
