/-!
# Ron.Gap — what may stand between the parts of a RON text

- A gap holds white space, comments up to the end of a line, and block comments, which nest.
- `skipGap` drops the gap at the front of a text. A slash that starts no comment and a block comment
  that is not closed are faults.
-/

namespace GraphScript.Ron

def isSpace (c : Char) : Bool :=
  let n := c.toNat
  (9 ≤ n && n ≤ 13) || n = 32 || n = 0x85 || n = 0x200E || n = 0x200F || n = 0x2028 || n = 0x2029

/-- The part of a gap in which a character stands. -/
inductive Gap where
  | space
  | line
  /-- A block comment inside so many others. -/
  | block (level : Nat)

def Gap.skip : Gap → List Char → Option (List Char)
  | .space, '/' :: '/' :: cs => skip .line cs
  | .space, '/' :: '*' :: cs => skip (.block 0) cs
  | .space, '/' :: _ => none
  | .space, c :: cs => if isSpace c then skip .space cs else some (c :: cs)
  | .space, [] => some []
  | .line, c :: cs => if c = '\n' then skip .space cs else skip .line cs
  | .line, [] => some []
  | .block level, '/' :: '*' :: cs => skip (.block (level + 1)) cs
  | .block 0, '*' :: '/' :: cs => skip .space cs
  | .block (level + 1), '*' :: '/' :: cs => skip (.block level) cs
  | .block level, _ :: cs => skip (.block level) cs
  | .block _, [] => none

/-- Drop the gap at the front of a text. -/
def skipGap (cs : List Char) : Option (List Char) := Gap.skip .space cs

end GraphScript.Ron
