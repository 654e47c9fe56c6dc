import GraphScript.Number.Signed

/-!
# Tree — data on its way into a file

- A `Tree` is what a document says, before a format decides how to write it.
- Records have fixed fields and tables have arbitrary keys; some formats write the two differently.
-/

namespace GraphScript

inductive Tree where
  | flag (b : Bool)
  | natural (n : Nat)
  | number (x : Signed Float)
  | single (x : Signed Float32)
  | text (s : String)
  /-- One of a fixed set of names. -/
  | choice (name : String)
  | list (items : List Tree)
  | record (fields : List (String × Tree))
  | table (entries : List (String × Tree))

end GraphScript
