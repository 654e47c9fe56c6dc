import GraphScript.Json.Number

/-!
# Json.Token — JSON text as a sequence of tokens

- `tokens` reads a text character by character. A character that starts no token yields `broken`,
  and what follows a `broken` token is never looked at.
- Two faults are kept inside tokens, because they matter only to a reader that needs the content:
  a number out of range, and a text with half of a surrogate pair.
-/

namespace GraphScript.Json

inductive Token where
  | openArray
  | closeArray
  | openObject
  | closeObject
  | colon
  | comma
  | null
  | bool (b : Bool)
  | number (n : Option Number)
  | text (s : Option String)
  | broken
  deriving DecidableEq

/-! ## Words -/

/-- Characters of numbers and of the three names. -/
def isWordChar (c : Char) : Bool := c.isAlphanum || c = '+' || c = '-' || c = '.'

/-- The tokens of a word: a name or a number, and a fault where characters are left over. -/
def wordTokens (word : List Char) : List Token :=
  let named (t : Token) (rest : List Char) := if rest.isEmpty then [t] else [t, .broken]
  match word with
  | 'n' :: 'u' :: 'l' :: 'l' :: rest => named .null rest
  | 't' :: 'r' :: 'u' :: 'e' :: rest => named (.bool true) rest
  | 'f' :: 'a' :: 'l' :: 's' :: 'e' :: rest => named (.bool false) rest
  | word =>
    match Literal.parse? word with
    | some (l, rest) => named (.number l.number?) rest
    | none => [.broken]

/-! ## Texts -/

/-- A text that is being read: its characters so far, last one first. -/
structure Partial where
  chars : List Char := []
  /-- The first half of a surrogate pair that waits for the second. -/
  half : Option Nat := none
  /-- No half of a pair was left alone. -/
  sound : Bool := true
  deriving DecidableEq

namespace Partial

def push (p : Partial) (c : Char) : Partial :=
  ⟨c :: p.chars, none, p.sound && p.half.isNone⟩

/-- Add a code unit that was written by its number. -/
def pushUnit (p : Partial) (n : Nat) : Partial :=
  if 0xD800 ≤ n ∧ n < 0xDC00 then ⟨p.chars, some n, p.sound && p.half.isNone⟩
  else if 0xDC00 ≤ n ∧ n < 0xE000 then
    match p.half with
    | some high =>
      ⟨Char.ofNat (0x10000 + (high - 0xD800) * 0x400 + (n - 0xDC00)) :: p.chars, none, p.sound⟩
    | none => ⟨p.chars, none, false⟩
  else p.push (Char.ofNat n)

def finish (p : Partial) : Option String :=
  if p.sound ∧ p.half.isNone then some (String.ofList p.chars.reverse) else none

end Partial

def unescape? : Char → Option Char
  | '"' => some '"'
  | '\\' => some '\\'
  | '/' => some '/'
  | 'b' => some '\x08'
  | 'f' => some '\x0c'
  | 'n' => some '\n'
  | 'r' => some '\r'
  | 't' => some '\t'
  | _ => none

def hexValue? (c : Char) : Option Nat :=
  if c.isDigit then some (digitValue c)
  else if 'a' ≤ c ∧ c ≤ 'f' then some (c.toNat - 'a'.toNat + 10)
  else if 'A' ≤ c ∧ c ≤ 'F' then some (c.toNat - 'A'.toNat + 10)
  else none

/-! ## The reader -/

/-- Where the reader stands. -/
inductive Mode where
  | between
  /-- Inside a word, its characters so far, last one first. -/
  | word (read : List Char)
  | text (p : Partial)
  | escape (p : Partial)
  /-- Behind `\u`, with the number of digits still to come and the value so far. -/
  | unit (p : Partial) (missing value : Nat)

/-- Start anew at a character that continues nothing. -/
def start (c : Char) : List Token × Mode :=
  match c with
  | '[' => ([.openArray], .between)
  | ']' => ([.closeArray], .between)
  | '\x7b' => ([.openObject], .between)
  | '\x7d' => ([.closeObject], .between)
  | ':' => ([.colon], .between)
  | ',' => ([.comma], .between)
  | '"' => ([], .text {})
  | ' ' => ([], .between)
  | '\n' => ([], .between)
  | '\r' => ([], .between)
  | '\t' => ([], .between)
  | c => if isWordChar c then ([], .word [c]) else ([.broken], .between)

/-- Read one character: the tokens that it completes, and where the reader stands then. -/
def step (mode : Mode) (c : Char) : List Token × Mode :=
  match mode with
  | .between => start c
  | .word read =>
    if isWordChar c then ([], .word (c :: read))
    else
      let (ts, mode) := start c
      (wordTokens read.reverse ++ ts, mode)
  | .text p =>
    if c = '"' then ([.text p.finish], .between)
    else if c = '\\' then ([], .escape p)
    else if c.toNat < 32 then ([.broken], .between)
    else ([], .text (p.push c))
  | .escape p =>
    if c = 'u' then ([], .unit p 4 0)
    else match unescape? c with
      | some c => ([], .text (p.push c))
      | none => ([.broken], .between)
  | .unit p missing value =>
    match hexValue? c with
    | none => ([.broken], .between)
    | some d =>
      let value := 16 * value + d
      if missing ≤ 1 then ([], .text (p.pushUnit value)) else ([], .unit p (missing - 1) value)

def Mode.finish : Mode → List Token
  | .between => []
  | .word read => wordTokens read.reverse
  | _ => [.broken]

def tokensFrom (mode : Mode) : List Char → List Token
  | [] => mode.finish
  | c :: cs =>
    let (ts, mode) := step mode c
    ts ++ tokensFrom mode cs

def tokens (text : String) : List Token := tokensFrom .between text.toList

end GraphScript.Json
