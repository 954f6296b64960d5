/-!
# Blank characters and trimming

`isBlank` is the Unicode property White_Space: the ASCII blanks, next line, no-break space, the
typographic spaces, and the line and paragraph separators.  `trim` removes blanks at both ends of a
text and leaves those inside.
-/

set_option autoImplicit false

namespace RobotConsole.Text

/-- Ranges of code points with the property White_Space. -/
def blankRanges : List (Nat × Nat) :=
  [(0x09, 0x0D), (0x20, 0x20), (0x85, 0x85), (0xA0, 0xA0), (0x1680, 0x1680), (0x2000, 0x200A),
    (0x2028, 0x2029), (0x202F, 0x202F), (0x205F, 0x205F), (0x3000, 0x3000)]

def inRanges (ranges : List (Nat × Nat)) (c : Char) : Bool :=
  ranges.any fun range => decide (range.1 ≤ c.toNat) && decide (c.toNat ≤ range.2)

def isBlank (c : Char) : Bool :=
  inRanges blankRanges c

/-- The list without the longest run of its last members that all satisfy `drop`. -/
def dropEndWhile (drop : Char → Bool) (cs : List Char) : List Char :=
  (cs.reverse.dropWhile drop).reverse

def trimChars (cs : List Char) : List Char :=
  dropEndWhile isBlank (cs.dropWhile isBlank)

def trim (text : String) : String :=
  String.ofList (trimChars text.toList)

theorem dropEndWhile_append_of_all (drop : Char → Bool) (kept dropped : List Char)
    (all : ∀ c ∈ dropped, drop c = true) :
    dropEndWhile drop (kept ++ dropped) = dropEndWhile drop kept := by
  unfold dropEndWhile
  rw [List.reverse_append, List.dropWhile_append_of_pos]
  intro c member
  exact all c (List.mem_reverse.mp member)

end RobotConsole.Text
