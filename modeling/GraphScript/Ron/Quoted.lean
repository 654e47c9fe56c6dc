/-!
# Ron.Quoted — quoted content in RON text

- Texts, byte strings, characters and bytes stand between quotation marks, with escapes. Texts and
  byte strings may also be raw, between any number of hashes.
- Bytes written by number spell characters of a text only in groups of one whole character each.
- `isOpenText` and `isOpenBytes` recognise content whose end is missing.
-/

namespace GraphScript.Ron

/-! ## Escapes -/

/-- The number that a digit of any base up to sixteen stands for. -/
def digit? (c : Char) : Option Nat :=
  if '0' ≤ c ∧ c ≤ '9' then some (c.toNat - '0'.toNat)
  else if 'a' ≤ c ∧ c ≤ 'f' then some (c.toNat - 'a'.toNat + 10)
  else if 'A' ≤ c ∧ c ≤ 'F' then some (c.toNat - 'A'.toNat + 10)
  else none

/-- Digits of a base, behind a number that was read. -/
def digits? (base : Nat) (value : Nat) : List Char → Option Nat
  | [] => some value
  | c :: cs =>
    match digit? c with
    | some d => if d < base then digits? base (base * value + d) cs else none
    | none => none

/-- A part of quoted content. -/
inductive Piece where
  | char (c : Char)
  /-- A character that a backslash and one letter or mark stand for. -/
  | sign (c : Char)
  /-- A byte that was written by its number. -/
  | byte (b : UInt8)

def sign? : Char → Option Char
  | '\x27' => some '\x27'
  | '"' => some '"'
  | '\\' => some '\\'
  | 'n' => some '\n'
  | 'r' => some '\r'
  | 't' => some '\t'
  | '0' => some '\x00'
  | _ => none

/-- A code of one to six digits in braces, behind its opening brace. -/
def code? (cs : List Char) : Option (Char × List Char) :=
  let ds := (cs.take 6).takeWhile (· ≠ '\x7d')
  match ds, digits? 16 0 ds, cs.drop ds.length with
  | _ :: _, some n, '\x7d' :: rest => if n.isValidChar then some (Char.ofNat n, rest) else none
  | _, _, _ => none

def Piece.bytes : Piece → List UInt8
  | char c => String.utf8EncodeChar c
  | sign c => String.utf8EncodeChar c
  | byte b => [b]

def escape? : List Char → Option (Piece × List Char)
  | 'x' :: high :: low :: cs => (digits? 16 0 [high, low]).map fun n => (.byte (.ofNat n), cs)
  | 'u' :: '\x7b' :: cs => (code? cs).map fun (c, cs) => (.char c, cs)
  | c :: cs => (sign? c).map fun c => (.sign c, cs)
  | [] => none

def textOfBytes? (bytes : List UInt8) : Option String := String.fromUTF8? ⟨bytes.toArray⟩

def charOfBytes? (bytes : List UInt8) : Option Char := (textOfBytes? bytes).bind (·.toList.head?)

/-- Read the rest of the bytes that spell a character, each of them written by its number. At most
`fuel` bytes may be missing. -/
def spelledChar? : (fuel : Nat) → List UInt8 → List Char → Option (Char × List Char)
  | fuel, bytes, cs =>
    match charOfBytes? bytes, fuel, cs with
    | some c, _, cs => some (c, cs)
    | none, fuel + 1, '\\' :: 'x' :: cs => do
      let (p, cs) ← escape? ('x' :: cs)
      spelledChar? fuel (bytes ++ p.bytes) cs
    | none, _, _ => none

def charEscape? (cs : List Char) : Option (Char × List Char) := do
  let (p, cs) ← escape? cs
  match p with
  | .char c => some (c, cs)
  | .sign c => some (c, cs)
  | .byte b => spelledChar? 3 [b] cs

def byteEscape? (cs : List Char) : Option (List UInt8 × List Char) :=
  (escape? cs).map fun (p, cs) => (p.bytes, cs)

/-! ## Texts and byte strings -/

section

variable {α : Type} (plain : Char → α) (escape : List Char → Option (α × List Char))

/-- Read parts of content up to a quotation mark. `fuel` bounds their number. -/
def contentWithin? : (fuel : Nat) → List Char → Option (List α × List Char)
  | fuel + 1, c :: cs =>
    if c = '"' then some ([], cs)
    else do
      let (a, cs) ← if c = '\\' then escape cs else some (plain c, cs)
      let (as, cs) ← contentWithin? fuel cs
      some (a :: as, cs)
  | _, _ => none

def content? (cs : List Char) : Option (List α × List Char) :=
  contentWithin? plain escape cs.length cs

/-- Is there no mark that ends the content? Behind an escape that cannot be read none is looked
for. -/
def lacksMarkWithin : (fuel : Nat) → List Char → Bool
  | 0, _ => true
  | fuel + 1, cs =>
    match cs.contains '"', cs.dropWhile fun c => c ≠ '"' ∧ c ≠ '\\' with
    | false, _ => true
    | true, '\\' :: cs => (escape cs).any fun (_, cs) => lacksMarkWithin fuel cs
    | true, _ => false

def lacksMark (cs : List Char) : Bool := lacksMarkWithin escape (cs.length + 1) cs

end

/-- Raw content up to a quotation mark and so many hashes. -/
def rawContent? (hashes : Nat) : List Char → Option (List Char × List Char)
  | [] => none
  | c :: cs =>
    if c = '"' ∧ (cs.take hashes).all (· = '#') ∧ hashes ≤ cs.length then
      some ([], cs.drop hashes)
    else (rawContent? hashes cs).map fun (read, rest) => (c :: read, rest)

/-- Read raw content, from its opening hashes on. -/
def raw? (cs : List Char) : Option (String × List Char) :=
  let hashes := (cs.takeWhile (· = '#')).length
  match cs.drop hashes with
  | '"' :: cs => (rawContent? hashes cs).map fun (read, rest) => (String.ofList read, rest)
  | _ => none

/-- Does raw content, from its opening hashes on, have no end? -/
def lacksRawMark (cs : List Char) : Bool :=
  (cs.dropWhile (· = '#')).head? = some '"' && (raw? cs).isNone

def text? : List Char → Option (String × List Char)
  | '"' :: cs => (content? id charEscape? cs).map fun (read, cs) => (String.ofList read, cs)
  | 'r' :: cs => raw? cs
  | _ => none

/-- Does a text start here and never end? -/
def isOpenText : List Char → Bool
  | '"' :: cs => lacksMark charEscape? cs
  | 'r' :: cs => lacksRawMark cs
  | _ => false

/-- Read a byte string; the answer holds the text that its bytes spell, if they spell one. -/
def bytes? : List Char → Option (Option String × List Char)
  | 'b' :: '"' :: cs =>
    (content? String.utf8EncodeChar byteEscape? cs).map fun (read, cs) =>
      (textOfBytes? read.flatten, cs)
  | 'b' :: 'r' :: cs => (raw? cs).map fun (s, cs) => (some s, cs)
  | _ => none

def isOpenBytes : List Char → Bool
  | 'b' :: '"' :: cs => lacksMark byteEscape? cs
  | 'b' :: 'r' :: cs => lacksRawMark cs
  | _ => false

/-! ## Characters and bytes -/

/-- Read one piece and an apostrophe behind it. -/
def piece? (cs : List Char) : Option (Piece × List Char) :=
  let read := match cs with
    | '\\' :: cs => escape? cs
    | c :: cs => some (.char c, cs)
    | [] => none
  match read with
  | some (p, '\x27' :: cs) => some (p, cs)
  | _ => none

/-- Read a character. Written by its number it is one byte long. -/
def char? : List Char → Option (Char × List Char)
  | '\x27' :: cs => do
    let (p, cs) ← piece? cs
    match p with
    | .char c => some (c, cs)
    | .sign c => some (c, cs)
    | .byte b => (charOfBytes? [b]).map fun c => (c, cs)
  | _ => none

/-- Read a byte. A code in braces is none. -/
def byte? : List Char → Option (Nat × List Char)
  | 'b' :: '\x27' :: '\\' :: cs => do
    let (p, cs) ← piece? ('\\' :: cs)
    match p with
    | .char _ => none
    | .sign c => some (c.toNat, cs)
    | .byte b => some (b.toNat, cs)
  | 'b' :: '\x27' :: c :: '\x27' :: cs => if c.toNat < 128 then some (c.toNat, cs) else none
  | _ => none

end GraphScript.Ron
